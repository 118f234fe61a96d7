import ScenarioHost.Host.Boundary

/-!
Invocation of callbacks: by themselves, and as the action of a button, the hook for new ships or a
reply in a conversation. Failures of the latter are written to the console.
-/
namespace ScenarioHost.Callbacks

open Lua (Evaluator Site Value)

variable (run : Evaluator)

/-- Calls a callback; once its environment is gone this fails without running anything. -/
def invoke (site : Site) (c : Callback) (args : List Value) : Act ScriptError (List Value) := do
  if ← Act.read fun w => w.isAlive c.environment then
    Act.between (·.enter c.environment) (·.leave c.environment)
      ((Boundary.call run c.environment site (.function c.function) args).mapError fun e =>
        .runtime e.message)
  else Act.raise .invalidHandle

def report (site : Site) (label : String) (c : Callback) (args : List Value) :
    Act ScriptError Bool := do
  match ← (invoke run site c args).attempt with
  | .ok _ => return true
  | .error e => do
    Act.update fun w => w.addError (label ++ ": " ++ e.message)
    Act.raise e

/-- Presses the button of the game master at a place; false when there is none. -/
def runButton (site : Site) (i : Nat) : Act ScriptError Bool := do
  match ← Act.read fun w => w.session.bind (·.button? i) with
  | none => return false
  | some b => report run site b.label b.callback []

/-- Tells the hook about a new ship; false when none is installed. -/
def firePlayerShip (site : Site) (ship : Nat) : Act ScriptError Bool := do
  match ← Act.read fun w => w.session.bind (·.playerShipHook) with
  | none => return false
  | some c => report run site "onNewPlayerShip" c [Conversion.ofEntity ship]

/-- Chooses a reply; message and replies are cleared before its callback starts. -/
def selectReply (site : Site) (i source target : Nat) : Act ScriptError Bool := do
  match ← Act.read fun w => w.session.bind (·.reply? i) with
  | none => return false
  | some r => do
    Act.update fun w => w.modifySession Session.beginReply
    report run site r.label r.callback [Conversion.ofEntity source, Conversion.ofEntity target]

end ScenarioHost.Callbacks
