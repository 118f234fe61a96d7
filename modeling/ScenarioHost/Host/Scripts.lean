import ScenarioHost.Host.Environments

/-!
Sub-scripts: environments that scripts make and hold by handles. The session owns them; a handle
is of no use once its environment is gone.
-/
namespace ScenarioHost.Scripts

open Lua (Evaluator Heap Site Spot UserdataId Value)

variable (run : Evaluator)

def sessionEnded : HostError := .runtime "scenario session has ended"

def siteInside (s : Spot) : Site := ⟨s.callers.depth + 1, []⟩

def create (s : Spot) : Act HostError Value := do
  if ← Act.read fun w => w.session.isNone then Act.raise sessionEnded
  else
    let script ← (Environments.create run (siteInside s)).mapError HostError.runtime
    Act.update fun w => w.modifySession fun session => session.addScript script
    let u ← Act.readHeap s.env (·.nextUserdata)
    Act.updateHeap s.env fun h => h.addUserdata ⟨.script script, h.scriptMeta⟩
    return .userdata u

def receiver (h : Heap) (args : List Value) : Except HostError EnvironmentId :=
  match args with
  | [] => .error (.conversion "missing argument" "userdata" none)
  | v :: _ =>
    match v, Conversion.payload? h v with
    | _, some (.script script) => .ok script
    | .userdata _, _ => .error .wrongUserdata
    | _, _ =>
      .error (.conversion v.typeName "userdata" (some "expected userdata of type 'ScriptObject'"))

def inMethod {α : Type} (method : String) (x : Act HostError α) : Act HostError α :=
  x.mapError fun e =>
    match e with
    | .badArgument _ place cause => .badArgument (some ("ScriptObject." ++ method)) place cause
    | e => e

def receiverArg (env : EnvironmentId) (args : List Value) : Act HostError EnvironmentId := do
  let h ← Act.readHeap env fun h => h
  Act.ofExcept ((receiver h args).mapError (.badArgument none .receiver))

def reaching {α : Type} (script : EnvironmentId) (x : Act HostError α) : Act HostError α := do
  if ← Act.read fun w => w.isPresent script then
    Act.between (·.hold script) (·.unhold script) x
  else Act.raise (.script .invalidHandle)

/-- Runs a module with its translations; a failure is written to the console. -/
def runModule (s : Spot) (args : List Value) : Act HostError Bool := do
  let (script, name) ← inMethod "run" do
    let script ← receiverArg s.env args
    let name ← Conversion.argument Conversion.toText s.env args 2
    return (script, name)
  reaching script do
    match ← (Loading.runLocalized run script (siteInside s) name).attempt with
    | .ok _ => return true
    | .error message => do
      Act.update fun w => w.addError message
      return false

def setVariable (s : Spot) (args : List Value) : Act HostError Unit := do
  let (script, name, value) ← inMethod "setVariable" do
    let script ← receiverArg s.env args
    let name ← Conversion.argument Conversion.toText s.env args 2
    let value ← Conversion.argument Conversion.toText s.env args 3
    return (script, name, value)
  reaching script (Boundary.setGlobal run script (siteInside s) name (Conversion.ofText value))

end ScenarioHost.Scripts
