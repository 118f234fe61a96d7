import ScenarioHost.Config
import ScenarioHost.Console
import ScenarioHost.Entities
import ScenarioHost.Library
import ScenarioHost.Session
import ScenarioHost.Lua.Heap

/-!
The world that scripts run in, and actions on it. An action gives a value, raises an error or runs
out of fuel; what it did to the world before an error stays done.
-/
namespace ScenarioHost

structure Environment where
  heap : Lua.Heap
  globals : Lua.TableId
  /-- The table of functions shared by all entities, once a script asked for it. -/
  entityFunctions : Option Lua.TableId
  /-- Whether its owner, the host or the session, still holds it. -/
  owned : Bool
  /-- Methods of handles to it that are at work; each keeps the environment. -/
  holds : Nat
  /-- Invocations of its callbacks in progress; each keeps its callbacks valid. -/
  calls : Nat
deriving Inhabited

namespace Environment

def present (e : Environment) : Bool := e.owned || decide (0 < e.holds)

/-- Callbacks are valid as long as their environment is there or one of them is in progress. -/
def valid (e : Environment) : Bool := e.present || decide (0 < e.calls)

end Environment

inductive Origin where
  | script
  | session
deriving DecidableEq

structure JournalLine where
  level : Level
  origin : Origin
  text : String
deriving DecidableEq

structure Streams where
  opened : Nat
  released : Nat
deriving DecidableEq

def Streams.open_ (s : Streams) : Streams := { s with opened := s.opened + 1 }

def Streams.release (s : Streams) : Streams := { s with released := s.released + 1 }

structure World where
  config : Config
  library : Library
  catalog : Catalog
  entities : Entities
  console : Console
  journal : List JournalLine
  streams : Streams
  /-- State of the generator of random numbers. -/
  seed : UInt64
  environments : Array Environment
  /-- Environments that the host left to functions of its own, which let them go. -/
  lent : List EnvironmentId
  /-- The session, until it has ended. -/
  session : Option Session

namespace World

def new (config : Config) (library : Library) : World where
  config := config
  library := library
  catalog := .empty
  entities := .empty
  console := .ofCapacity config.consoleCapacity
  journal := []
  streams := ⟨0, 0⟩
  seed := 0x9E3779B97F4A7C15
  environments := #[]
  lent := []
  session := some .new

def environment (w : World) (e : EnvironmentId) : Environment := w.environments.getD e.index default

def isPresent (w : World) (e : EnvironmentId) : Bool :=
  (w.environments[e.index]?.map Environment.present).getD false

def isAlive (w : World) (e : EnvironmentId) : Bool :=
  (w.environments[e.index]?.map Environment.valid).getD false

def heap (w : World) (e : EnvironmentId) : Lua.Heap := (w.environment e).heap

def modifyEnvironment (w : World) (e : EnvironmentId) (f : Environment → Environment) : World :=
  { w with environments := w.environments.modify e.index f }

@[inline] def modifyHeap (w : World) (e : EnvironmentId) (f : Lua.Heap → Lua.Heap) : World :=
  w.modifyEnvironment e fun environment => { environment with heap := f environment.heap }

/-- Takes an environment from its owner. Handles and callbacks of it are invalid as soon as nothing
else keeps it. -/
def destroy (w : World) (e : EnvironmentId) : World :=
  w.modifyEnvironment e fun environment => { environment with owned := false }

/-- Lets an environment go if the host left it to its functions. -/
def letGo (w : World) (e : EnvironmentId) : World := if e ∈ w.lent then w.destroy e else w

def hold (w : World) (e : EnvironmentId) : World :=
  w.modifyEnvironment e fun environment => { environment with holds := environment.holds + 1 }

def unhold (w : World) (e : EnvironmentId) : World :=
  w.modifyEnvironment e fun environment => { environment with holds := environment.holds - 1 }

def enter (w : World) (e : EnvironmentId) : World :=
  w.modifyEnvironment e fun environment => { environment with calls := environment.calls + 1 }

def leave (w : World) (e : EnvironmentId) : World :=
  w.modifyEnvironment e fun environment => { environment with calls := environment.calls - 1 }

def log (w : World) (line : JournalLine) : World := { w with journal := line :: w.journal }

def drainJournal (w : World) : List JournalLine × World :=
  (w.journal.reverse, { w with journal := [] })

def addLog (w : World) (message : String) : World :=
  { w.log ⟨.info, .script, message⟩ with console := w.console.addLog message }

def addError (w : World) (message : String) : World :=
  { w.log ⟨.error, .script, message⟩ with console := w.console.addError message }

def modifySession (w : World) (f : Session → Session) : World :=
  { w with session := w.session.map f }

def clearScripts (w : World) : World :=
  match w.session with
  | none => w
  | some s => s.scripts.foldl destroy { w with session := some s.dropScripts }

def endSession (w : World) : World := { w.clearScripts with session := none }

def draw (w : World) : Nat × World :=
  let seed := w.seed * 6364136223846793005 + 1442695040888963407
  ((seed >>> 11).toNat, { w with seed := seed })

def loadOverlay (w : World) (name : String) : World := { w with catalog := (w.catalog.load name).2 }

end World

/-- How an action ends. One that runs out of fuel leaves the world at that moment. -/
inductive Outcome (ε α : Type) where
  | done (a : α) (w : World)
  | raised (e : ε) (w : World)
  | starved {w : World}

def Act (ε α : Type) : Type := World → Outcome ε α

namespace Act

variable {ε ε' α β σ : Type}

@[inline] protected def pure (a : α) : Act ε α := fun w => .done a w

@[inline] protected def bind (x : Act ε α) (f : α → Act ε β) : Act ε β := fun w =>
  match x w with
  | .done a w => f a w
  | .raised e w => .raised e w
  | @Outcome.starved _ _ w => @Outcome.starved _ _ w

@[always_inline] instance : Monad (Act ε) where
  pure := Act.pure
  bind := Act.bind

@[inline] def raise (e : ε) : Act ε α := fun w => .raised e w

def starve : Act ε α := fun w => @Outcome.starved _ _ w

@[inline] def read (f : World → α) : Act ε α := fun w => .done (f w) w

@[inline] def update (f : World → World) : Act ε Unit := fun w => .done () (f w)

/-- Turns an error into a value; want of fuel is no error. -/
@[inline] def attempt (x : Act ε α) : Act ε' (Except ε α) := fun w =>
  match x w with
  | .done a w => .done (.ok a) w
  | .raised e w => .done (.error e) w
  | @Outcome.starved _ _ w => @Outcome.starved _ _ w

@[inline] def ofExcept : Except ε α → Act ε α
  | .ok a => Act.pure a
  | .error e => raise e

@[inline] def mapError (f : ε → ε') (x : Act ε α) : Act ε' α := fun w =>
  match x w with
  | .done a w => .done a w
  | .raised e w => .raised (f e) w
  | @Outcome.starved _ _ w => @Outcome.starved _ _ w

/-- Does something between two changes of the world; the second one comes however it ends. -/
@[inline] def between (first last : World → World) (x : Act ε α) : Act ε α := fun w =>
  match x (first w) with
  | .done a w => .done a (last w)
  | .raised e w => .raised e (last w)
  | @Outcome.starved _ _ w => @Outcome.starved _ _ w

def draw : Act ε Nat := fun w => .done w.draw.1 w.draw.2

@[inline] def readHeap (e : EnvironmentId) (f : Lua.Heap → α) : Act ε α :=
  read fun w => f (w.heap e)

@[inline] def updateHeap (e : EnvironmentId) (f : Lua.Heap → Lua.Heap) : Act ε Unit :=
  update fun w => w.modifyHeap e f

@[specialize] def iterate (step : σ → Act ε (Sum σ α)) : (limit : Nat) → σ → Act ε α
  | 0, _ => starve
  | limit + 1, s => fun w =>
    match step s w with
    | .done (.inl s) w => iterate step limit s w
    | .done (.inr a) w => .done a w
    | .raised e w => .raised e w
    | @Outcome.starved _ _ w => @Outcome.starved _ _ w

end Act

end ScenarioHost
