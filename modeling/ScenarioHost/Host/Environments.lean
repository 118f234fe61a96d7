import ScenarioHost.Host.Loading
import ScenarioHost.Lua.Library.Initial

/-!
Creation of environments. A new environment has all functions of the host before its first
bootstrap module runs; if one of these fails, there is no environment.
-/
namespace ScenarioHost.Environments

open Lua (Evaluator Heap Site TableId)

def hostFunctions : List (String × HostFunction) :=
  [("random", .random), ("irandom", .irandom), ("print", .print), ("_", .translate),
    ("getEEVersion", .engineVersion), ("require", .requireModule), ("createEntity", .createEntity),
    ("getLuaEntityFunctionTable", .entityFunctions), ("createClass", .createClass),
    ("getScenarioSetting", .scenarioSetting), ("getScenarioVariation", .scenarioVariation),
    ("onNewPlayerShip", .onNewPlayerShip), ("globalMessage", .globalMessage),
    ("victory", .victory), ("setBanner", .setBanner), ("getScenarioTime", .scenarioTime),
    ("getSectorName", .sectorName), ("sectorToXY", .sectorPosition),
    ("addGMFunction", .addGmFunction), ("clearGMFunctions", .clearGmFunctions),
    ("Script", .newScript), ("setCommsMessage", .setCommsMessage),
    ("addCommsReply", .addCommsReply), ("commsSwitchToGM", .commsSwitchToGm)]

def controlFunctions : List (String × ControlFunction) :=
  [("host_run_gm", .runGm), ("host_try_gm", .tryGm), ("host_select", .selectReply),
    ("host_fire_ship", .fireShip), ("host_clear_scripts", .clearScripts),
    ("host_advance", .advanceTime), ("host_open_streams", .openStreams)]

def initialHeap : Heap × TableId :=
  let (h, globals) := Lua.Library.standardHeap
  (Lua.Library.bindAll (Lua.Library.withHostMetatables h) globals
    (Lua.Library.named .host hostFunctions), globals)

def initial : Environment := ⟨initialHeap.1, initialHeap.2, none, true, 0, 0⟩

def allocate {ε : Type} : Act ε EnvironmentId := do
  let env ← Act.read fun w => (⟨w.environments.size⟩ : EnvironmentId)
  Act.update fun w => { w with environments := w.environments.push initial }
  return env

variable (run : Evaluator)

def bootstrap (env : EnvironmentId) (site : Site) : List String → Act String Unit
  | [] => return ()
  | module :: rest => do
    match ← (Loading.runFile run env site module).attempt with
    | .ok _ => bootstrap env site rest
    | .error message => do
      Act.update fun w => (w.addError message).destroy env
      Act.raise ("Bootstrap module " ++ module ++ " failed")

def create (site : Site) : Act String EnvironmentId := do
  let env ← allocate
  bootstrap run env site (← Act.read fun w => w.config.bootstrap)
  return env

def define {ε : Type} (env : EnvironmentId) (functions : List (String × ControlFunction)) :
    Act ε Unit :=
  Act.update fun w =>
    w.modifyEnvironment env fun e =>
      { e with
        heap := Lua.Library.bindAll e.heap e.globals (Lua.Library.named .control functions) }

def defineControls {ε : Type} (env : EnvironmentId) : Act ε Unit := define env controlFunctions

end ScenarioHost.Environments
