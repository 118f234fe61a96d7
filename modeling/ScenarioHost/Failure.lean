/-!
Failures of scripts as the host sees them: the kinds that loading a module and invoking a callback
report, and the errors that travel through an interpreter, with the layers put around them.
-/
namespace ScenarioHost

inductive ScriptError where
  /-- No module of that name is known. -/
  | moduleNotFound (module : String)
  /-- The module could not be read or compiled. -/
  | load (module message : String)
  /-- A module or a callback raised an error while it ran. -/
  | runtime (message : String)
  /-- The environment that a handle belongs to is gone. -/
  | invalidHandle
deriving DecidableEq

def ScriptError.message : ScriptError → String
  | .moduleNotFound module => "Require: Script not found: " ++ module
  | .load module message => "require:" ++ module ++ ": " ++ message
  | .runtime message => message
  | .invalidHandle => "script handle used after its environment was destroyed"

inductive ArgumentPlace where
  | position (n : Nat)
  | receiver
deriving DecidableEq

inductive HostError where
  | malformed (message : String)
  | runtime (message : String)
  | conversion (source target : String) (reason : Option String)
  | wrongUserdata
  /-- Any other error of the interpreter itself. -/
  | other (message : String)
  | script (e : ScriptError)
  /-- An error of the host that is no script error. -/
  | foreign (message : String)
  | badArgument (function : Option String) (place : ArgumentPlace) (cause : HostError)
  | callback (cause : HostError)
  | context (text : String) (cause : HostError)
deriving DecidableEq

namespace HostError

def place (function : Option String) : ArgumentPlace → String
  | .position n => "bad argument #" ++ toString n ++ named function
  | .receiver => "bad argument \x60self\x60" ++ named function
where
  named : Option String → String
    | some name => " to \x60" ++ name ++ "\x60"
    | none => ""

/-- The text of an error. A callback layer shows its cause alone, a context goes on a line of its
own before the cause. -/
def message : HostError → String
  | .malformed text => "syntax error: " ++ text
  | .runtime text => "runtime error: " ++ text
  | .conversion source target reason =>
    "error converting Lua " ++ source ++ " to " ++ target
      ++ (match reason with | some r => " (" ++ r ++ ")" | none => "")
  | .wrongUserdata => "userdata is not expected type"
  | .other text => text
  | .script e => e.message
  | .foreign text => text
  | .badArgument function at_ cause => place function at_ ++ ": " ++ cause.message
  | .callback cause => cause.message
  | .context text cause => text ++ "\n" ++ cause.message

def traceText : String := "\nstack traceback:\n\t[C]: in ?\n"

def shown : HostError → String
  | .callback cause => cause.message ++ traceText
  | e => e.message

def scriptError? : HostError → Option ScriptError
  | .script e => some e
  | .callback cause => cause.scriptError?
  | .context _ cause => cause.scriptError?
  | _ => none

end HostError

end ScenarioHost
