import ScenarioHost.Host.Boundary

/-!
The line that `print` writes. Tables are shown one level deep; values without a text are left out.
-/
namespace ScenarioHost.Printing

open Lua (Evaluator Site Spot TableId Value)

variable (run : Evaluator)

def numberText (x : Float) : String :=
  match Double.toInt64? x with
  | some i => toString i
  | none => plainDouble x

def valueText {ε : Type} (s : Spot) (v : Value) : Act ε (Option String) := do
  match v with
  | .nil => return some "nil"
  | .boolean b => return some (toString b)
  | .number x => return some (numberText x)
  | .string text => return some text.toTextLossy
  | _ =>
    match ← Act.readHeap s.env fun h => Conversion.hostError? h v with
    | some e => return some e.shown
    | none =>
      match ← (Boundary.textOf run s v).attempt with
      | .ok text => return text.toText?.toOption
      | .error _ => return none

def fieldText {ε : Type} (s : Spot) (key value : Value) : Act ε String := do
  let k ← valueText run s key
  let v ← valueText run s value
  return ((k.map (· ++ "=")).getD "") ++ v.getD ""

/-- More fields than any traversal comes to, though a handler that is called for a text may add some
on the way. -/
def fieldLimit : Nat := 0x1000000000000000

def fieldTexts {ε : Type} (s : Spot) (t : TableId) :
    (left : Nat) → (key : Value) → Act ε (List String)
  | 0, _ => Act.starve
  | left + 1, key => do
    match ← Act.readHeap s.env fun h => (h.table t).next? key with
    | some (some (k, v)) => do
      let text ← fieldText run s k v
      return text :: (← fieldTexts s t left k)
    | _ => return []

def tableText {ε : Type} (s : Spot) (t : TableId) : Act ε String := do
  return "\x7b" ++ String.intercalate "," (← fieldTexts run s t fieldLimit .nil) ++ "\x7d"

inductive Argument where
  | value (v : Value)
  | double (x : Float)

def argumentText {ε : Type} (s : Spot) (a : Argument) : Act ε (Option String) := do
  match a with
  | .value (.table t) => return some (← tableText run s t)
  | .value v => valueText run s v
  | .double x => return some (plainDouble x)

def restText {ε : Type} (s : Spot) : List Argument → Act ε String
  | [] => return ""
  | a :: rest => do
    let text ← argumentText run s a
    let after ← restText s rest
    return ((text.map (" " ++ ·)).getD "") ++ after

def line {ε : Type} (s : Spot) (args : List Argument) : Act ε String := do
  match args with
  | [] => return ""
  | a :: rest => do
    let text ← argumentText run s a
    let after ← restText run s rest
    return text.getD "" ++ after

end ScenarioHost.Printing
