import ScenarioHost.Host.Callbacks
import ScenarioHost.Host.Loading
import ScenarioHost.Reference

/-!
A scenario without a screen: its entry module, `init`, and then `update` tick by tick. The first
failure ends the run and is written to the console.
-/
namespace ScenarioHost.Headless

open Lua (Evaluator Site Value)

variable (run : Evaluator)

/-- Writes a failure to the console; true when there was none. -/
def checked {ε α : Type} (x : Act String α) : Act ε Bool := do
  match ← x.attempt with
  | .ok _ => return true
  | .error message => do
    Act.update fun w => w.addError message
    return false

def callChecked {ε : Type} (env : EnvironmentId) (name : String) (args : List Value) : Act ε Bool :=
  checked ((Boundary.callGlobal run env .outside name args).mapError HostError.message)

def isPaused (w : World) : Bool := (w.session.map Session.paused).getD false

def ticks {ε : Type} (env : EnvironmentId) (delta : Single) : (count : Nat) → Act ε Bool
  | 0 => return true
  | count + 1 => do
    if ← Act.read isPaused then return true
    else
      Act.update fun w => w.modifySession fun s => s.advance delta
      if ← callChecked run env "update" [Conversion.ofSingle delta] then ticks env delta count
      else return false

def callInit {ε : Type} (env : EnvironmentId) : Act ε Bool := do
  if ← Boundary.hasFunction run env .outside "init" then callChecked run env "init" []
  else return true

/-- Runs a scenario; false when something failed. -/
def runScenario {ε : Type} (env : EnvironmentId) (entry : String) (count : Nat) (delta : Single) :
    Act ε Bool := do
  if ← checked (Loading.runLocalized run env .outside entry) then
    if ← callInit run env then
      if ← Boundary.hasFunction run env .outside "update" then ticks run env delta count
      else return true
    else return false
  else return false

def boundNames {ε : Type} (env : EnvironmentId) : List String → Act ε (List String)
  | [] => return []
  | name :: rest => do
    let bound ← Boundary.hasFunction run env .outside name
    let others ← boundNames env rest
    return if bound then name :: others else others

end ScenarioHost.Headless
