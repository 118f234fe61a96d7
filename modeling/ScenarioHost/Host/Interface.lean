import ScenarioHost.Sector
import ScenarioHost.Version
import ScenarioHost.Host.Callbacks
import ScenarioHost.Host.Classes
import ScenarioHost.Host.Printing
import ScenarioHost.Host.Scripts

/-!
The functions that scripts call to reach the host. Each converts its arguments from left to right
before it does anything.
-/
namespace ScenarioHost.Interface

open Conversion
open Lua (Evaluator Spot Value)

def changeSession (f : Session → Session) : Act HostError (List Value) := do
  if ← Act.read fun w => w.session.isNone then Act.raise Scripts.sessionEnded
  else
    Act.update fun w => w.modifySession f
    return []

def askSession (f : Session → Value) : Act HostError (List Value) := do
  match ← Act.read (·.session) with
  | none => Act.raise Scripts.sessionEnded
  | some session => return [f session]

def random (env : EnvironmentId) (args : List Value) : Act HostError (List Value) := do
  let low ← argument toSingle env args 1
  let high ← argument toSingle env args 2
  let fraction := Single.ofRatio false ((← Act.draw) / 0x20000000) 0x1000000
  return [ofSingle (low + (high - low) * fraction)]

def randomInteger (env : EnvironmentId) (args : List Value) : Act HostError (List Value) := do
  let a := Double.truncateInt64 (← argument toDouble env args 1)
  let b := Double.truncateInt64 (← argument toDouble env args 2)
  let drawn : Int := (← Act.draw)
  return [.number (Double.ofInt (min a b + drawn % (max a b - min a b + 1)))]

def translate (env : EnvironmentId) (args : List Value) : Act HostError (List Value) := do
  let first ← argument toText env args 1
  let second ← optional toText env args 2
  let catalog ← Act.read (·.catalog)
  return [ofText (match second with
    | some text => catalog.translateIn first text
    | none => catalog.translate first)]

def entityFunctions (env : EnvironmentId) : Act HostError (List Value) := do
  match ← Act.read fun w => (w.environment env).entityFunctions with
  | some t => return [.table t]
  | none => do
    let t ← Classes.newTable env
    Act.update fun w => w.modifyEnvironment env fun e => { e with entityFunctions := some t }
    return [.table t]

def globalMessage (env : EnvironmentId) (args : List Value) : Act HostError (List Value) := do
  let text ← argument toText env args 1
  let timeout ← optional toSingle env args 2
  let absent ← Act.read fun w => w.config.messageTimeout
  changeSession fun s => s.showMessage text (timeout.getD absent)

def declareVictory (w : World) (faction : String) : World :=
  (w.log ⟨.info, .session, "Scenario ended, victory for " ++ faction⟩).modifySession fun s =>
    s.declareVictory faction

def victory (env : EnvironmentId) (args : List Value) : Act HostError (List Value) := do
  let faction ← argument toText env args 1
  if ← Act.read fun w => w.session.isNone then Act.raise Scripts.sessionEnded
  else
    Act.update fun w => declareVictory w faction
    return []

def deprecatedVariation : JournalLine :=
  ⟨.warn, .script, "getScenarioVariation() is deprecated, use getScenarioSetting(\"variation\")"⟩

variable (run : Evaluator)

def callHost (s : Spot) (f : HostFunction) (args : List Value) : Act HostError (List Value) :=
  let env := s.env
  match f with
  | .random => random env args
  | .irandom => randomInteger env args
  | .print => do
    let line ← Printing.line run { s with callers := s.site none } (args.map .value)
    Act.update fun w => w.addLog line
    return []
  | .translate => translate env args
  | .engineVersion => return [.ofNat Version.current.number]
  | .requireModule => do
    let name ← argument toText env args 1
    (Loading.requireModule run env (s.site none) name).mapError HostError.script
  | .createEntity => do
    let (id, entities) ← Act.read fun w => w.entities.create
    Act.update fun w => { w with entities := entities }
    return [ofEntity id]
  | .entityFunctions => entityFunctions env
  | .createClass => do return [.table (← Classes.create env)]
  | .scenarioSetting => do
    let key ← argument toText env args 1
    askSession fun session => ofText (session.scenarioSetting key)
  | .scenarioVariation => do
    Act.update fun w => w.log deprecatedVariation
    askSession fun session => ofText session.variation
  | .onNewPlayerShip => do
    let callback ← argument (toCallback env) env args 1
    changeSession fun session => session.setPlayerShipHook callback
  | .globalMessage => globalMessage env args
  | .victory => victory env args
  | .setBanner => do
    let text ← argument toText env args 1
    changeSession fun session => session.setBanner text
  | .scenarioTime => askSession fun session => ofSingle session.elapsed
  | .sectorName => do
    let x ← argument toSingle env args 1
    let y ← argument toSingle env args 2
    return [ofText (Sector.containing x y).name]
  | .sectorPosition => do
    let (x, y) := Sector.position (← argument toText env args 1)
    return [ofSingle x, ofSingle y]
  | .addGmFunction => do
    let label ← argument toText env args 1
    let callback ← argument (toCallback env) env args 2
    changeSession fun session => session.addButton label callback
  | .clearGmFunctions => changeSession Session.clearButtons
  | .newScript => do return [← Scripts.create run s]
  | .setCommsMessage => do
    let text ← argument toText env args 1
    changeSession fun session => session.setCommsMessage text
  | .addCommsReply => do
    let label ← argument toText env args 1
    let callback ← argument (toCallback env) env args 2
    changeSession fun session => session.addReply label callback
  | .commsSwitchToGm => changeSession Session.requestGm

def callHandle (s : Spot) (f : HandleFunction) (args : List Value) : Act HostError (List Value) :=
  match f with
  | .run => do return [.boolean (← Scripts.runModule run s args)]
  | .setVariable => do
    Scripts.setVariable run s args
    return []
  | .text => return [.text "Script"]

def withSession (x : Act HostError (List Value)) : Act HostError (List Value) := do
  if ← Act.read fun w => w.session.isNone then Act.raise (.runtime "session gone") else x

def outcome (x : Act ScriptError Bool) : Act HostError (List Value) := do
  return [.boolean (← x.mapError HostError.script)]

def callControl (s : Spot) (f : ControlFunction) (args : List Value) : Act HostError (List Value) :=
  let env := s.env
  let site := Scripts.siteInside s
  match f with
  | .runGm => do
    let i ← argument toIndex env args 1
    withSession (outcome (Callbacks.runButton run site i))
  | .tryGm => do
    let i ← argument toIndex env args 1
    withSession do
      match ← (Callbacks.runButton run site i).attempt with
      | .ok _ => return [.boolean true]
      | .error _ => return [.boolean false]
  | .selectReply => do
    let i ← argument toIndex env args 1
    let source ← argument toEntity env args 2
    let target ← argument toEntity env args 3
    withSession (outcome (Callbacks.selectReply run site i source target))
  | .fireShip => do
    let ship ← argument toEntity env args 1
    withSession (outcome (Callbacks.firePlayerShip run site ship))
  | .clearScripts => withSession do
    Act.update World.clearScripts
    return []
  | .advanceTime => do
    let delta ← argument toSingle env args 1
    withSession (changeSession fun session => session.advance delta)
  | .openStreams => do
    let streams ← Act.read (·.streams)
    return [.number (Double.ofInt (streams.opened - streams.released))]
  | .letGo => do
    let i ← argument toIndex env args 1
    Act.update fun w => w.letGo ⟨i⟩
    return []

def errorText (env : EnvironmentId) (args : List Value) : Act HostError (List Value) := do
  match ← Act.readHeap env fun h => hostError? h (Value.arg args 0) with
  | some e => return [ofText e.shown]
  | none => return [.text "error"]

end ScenarioHost.Interface
