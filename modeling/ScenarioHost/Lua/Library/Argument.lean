import ScenarioHost.Lua.Operation

/-!
Arguments of built-in functions: their conversion and the messages about wrong ones.
-/
namespace ScenarioHost.Lua.Library

/-- The position of a function among the callers, as messages begin with it; level 1 is the
nearest caller. Functions of the host have none. -/
def positionText (site : Site) (level : Nat) : ByteString :=
  match site.places[level - 1]? with
  | some (.script chunk line _) => Spot.placeText chunk line
  | _ => .empty

def failure {α : Type} (s : Spot) (message : String) : Act Value α :=
  Act.raise (.string (positionText s.callers 1 ++ ⟨message⟩))

def argFailure {α : Type} (s : Spot) (n : Nat) (message : String) : Act Value α :=
  let naming : Option Naming :=
    match s.callers.places with
    | .script _ _ naming :: _ => naming
    | _ => none
  let name := (naming.map fun n => n.name.chars).getD "?"
  let isMethod := (naming.map fun n => n.kind == "method").getD false
  if isMethod && n == 1 then failure s ("calling '" ++ name ++ "' on bad self (" ++ message ++ ")")
  else
    let n := if isMethod then n - 1 else n
    failure s ("bad argument #" ++ toString n ++ " to '" ++ name ++ "' (" ++ message ++ ")")

def shownType (args : List Value) (n : Nat) : String :=
  match args[n - 1]? with
  | some v => v.typeName
  | none => "no value"

def typeFailure {α : Type} (s : Spot) (args : List Value) (n : Nat) (wanted : String) :
    Act Value α :=
  argFailure s n (wanted ++ " expected, got " ++ shownType args n)

def anyArg (s : Spot) (args : List Value) (n : Nat) : Act Value Value :=
  match args[n - 1]? with
  | some v => return v
  | none => argFailure s n "value expected"

def numberArg (s : Spot) (args : List Value) (n : Nat) : Act Value Float :=
  match (Value.arg args (n - 1)).toNumber? with
  | some x => return x
  | none => typeFailure s args n "number"

/-- A number without its fraction; what does not fit 32 bits becomes the least such integer. -/
def toInt (x : Float) : Int :=
  match (Double.reading x).truncate? with
  | some i => if -0x80000000 ≤ i ∧ i < 0x80000000 then i else -0x80000000
  | none => -0x80000000

def intArg (s : Spot) (args : List Value) (n : Nat) : Act Value Int := do
  return toInt (← numberArg s args n)

def optIntArg (s : Spot) (args : List Value) (n : Nat) (absent : Int) : Act Value Int :=
  if (Value.arg args (n - 1)).isNil then return absent else intArg s args n

def stringArg (s : Spot) (args : List Value) (n : Nat) : Act Value ByteString :=
  match (Value.arg args (n - 1)).toString? with
  | some t => return t
  | none => typeFailure s args n "string"

def optStringArg (s : Spot) (args : List Value) (n : Nat) (absent : ByteString) :
    Act Value ByteString :=
  if (Value.arg args (n - 1)).isNil then return absent else stringArg s args n

def tableArg (s : Spot) (args : List Value) (n : Nat) : Act Value TableId :=
  match Value.arg args (n - 1) with
  | .table t => return t
  | _ => typeFailure s args n "table"

def functionArg (s : Spot) (args : List Value) (n : Nat) : Act Value Value :=
  match Value.arg args (n - 1) with
  | .function f => return .function f
  | _ => typeFailure s args n "function"

def readTable (s : Spot) (t : TableId) : Act Value Table := Act.readHeap s.env fun h => h.table t

def newTable (s : Spot) (t : Table) : Act Value Value := do
  let id ← Act.readHeap s.env (·.nextTable)
  Act.updateHeap s.env (·.addTable t)
  return .table id

end ScenarioHost.Lua.Library
