import ScenarioHost.Binary.Single
import ScenarioHost.Catalog
import ScenarioHost.Failure
import ScenarioHost.Lua.Value

/-!
The state of a scenario that all its scripts share: settings, victory, messages, time, the buttons
of the game master, the hook for new ships, the conversation, and the sub-scripts.
-/
namespace ScenarioHost

/-- A script function held by the host, together with the environment it belongs to. -/
structure Callback where
  environment : EnvironmentId
  function : Lua.FunctionId
deriving DecidableEq

structure Choice where
  label : String
  callback : Callback
deriving DecidableEq

structure GlobalMessage where
  text : String
  timeout : Single
deriving DecidableEq

structure Comms where
  message : Option String
  replies : List Choice
  gmRequested : Bool
deriving DecidableEq

def Comms.empty : Comms := ⟨none, [], false⟩

structure Session where
  settings : Bindings String String
  victory : Option String
  paused : Bool
  banner : String
  globalMessage : Option GlobalMessage
  elapsed : Single
  buttons : List Choice
  playerShipHook : Option Callback
  comms : Comms
  /-- Environments that the session owns: scripts made them, or the host gave them to it. -/
  scripts : List EnvironmentId

namespace Session

def new : Session := ⟨[], none, false, "", none, .zero, [], none, .empty, []⟩

instance : Inhabited Session := ⟨new⟩

def setSetting (s : Session) (key value : String) : Session :=
  { s with settings := s.settings.insert key value }

def setting? (s : Session) (key : String) : Option String := s.settings.get? key

def scenarioSetting (s : Session) (key : String) : String := (s.setting? key).getD ""

def variation (s : Session) : String := (s.setting? "variation").getD "None"

def declareVictory (s : Session) (faction : String) : Session :=
  { s with victory := some faction, paused := true }

def setBanner (s : Session) (text : String) : Session := { s with banner := text }

def showMessage (s : Session) (text : String) (timeout : Single) : Session :=
  { s with globalMessage := some ⟨text, timeout⟩ }

/-- A message some time later; it goes when no time is left. -/
def GlobalMessage.after (m : GlobalMessage) (delta : Single) : Option GlobalMessage :=
  let left := m.timeout - delta
  if left.nonpositive then none else some { m with timeout := left }

def advance (s : Session) (delta : Single) : Session :=
  if s.paused || delta.nonpositive then s
  else
    { s with
      elapsed := s.elapsed + delta
      globalMessage := s.globalMessage.bind fun m => GlobalMessage.after m delta }

def addButton (s : Session) (label : String) (callback : Callback) : Session :=
  { s with buttons := s.buttons ++ [⟨label, callback⟩] }

def clearButtons (s : Session) : Session := { s with buttons := [] }

def button? (s : Session) (i : Nat) : Option Choice := s.buttons[i]?

def setPlayerShipHook (s : Session) (callback : Callback) : Session :=
  { s with playerShipHook := some callback }

def setCommsMessage (s : Session) (text : String) : Session :=
  { s with comms := { s.comms with message := some text } }

def addReply (s : Session) (label : String) (callback : Callback) : Session :=
  { s with comms := { s.comms with replies := s.comms.replies ++ [⟨label, callback⟩] } }

def requestGm (s : Session) : Session := { s with comms := { s.comms with gmRequested := true } }

def resetComms (s : Session) : Session := { s with comms := .empty }

def reply? (s : Session) (i : Nat) : Option Choice := s.comms.replies[i]?

def beginReply (s : Session) : Session :=
  { s with comms := { s.comms with message := none, replies := [] } }

def addScript (s : Session) (e : EnvironmentId) : Session := { s with scripts := s.scripts ++ [e] }

def dropScripts (s : Session) : Session := { s with scripts := [] }

def sortedSettings (s : Session) : List (String × String) :=
  s.settings.mergeSort fun a b => decide (a.1 ≤ b.1)

end Session

end ScenarioHost
