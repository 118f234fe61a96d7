/-!
The console: the last lines written by scripts and about their failures, as many as fit.
-/
namespace ScenarioHost

inductive Level where
  | info
  | warn
  | error
deriving DecidableEq

def Level.label : Level → String
  | .info => "INFO"
  | .warn => "WARN"
  | .error => "ERROR"

structure ConsoleLine where
  level : Level
  message : String
deriving DecidableEq

/-- Lines kept for reading, oldest first; there is room for one at least. -/
structure Console where
  room : Nat
  lines : List ConsoleLine

namespace Console

def ofCapacity (capacity : Nat) : Console := ⟨max capacity 1, []⟩

instance : Inhabited Console := ⟨ofCapacity 0⟩

def makeRoom (room : Nat) : List ConsoleLine → List ConsoleLine
  | [] => []
  | line :: rest => if room ≤ rest.length + 1 then makeRoom room rest else line :: rest

/-- Adds a line at the end; the oldest ones make room. -/
def push (c : Console) (line : ConsoleLine) : Console :=
  { c with lines := makeRoom c.room c.lines ++ [line] }

def addLog (c : Console) (message : String) : Console := c.push ⟨.info, message⟩

def addError (c : Console) (message : String) : Console := c.push ⟨.error, message⟩

/-- Notes a failure; true when there was none. -/
def check (c : Console) {α : Type} : Except String α → Bool × Console
  | .ok _ => (true, c)
  | .error message => (false, c.addError message)

def drain (c : Console) : List ConsoleLine × Console := (c.lines, { c with lines := [] })

def clear (c : Console) : Console := { c with lines := [] }

end Console

end ScenarioHost
