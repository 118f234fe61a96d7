import ScenarioHost.Lua.Library.Argument

/-!
The table functions. They work on fields without handlers; only `sort` asks for comparison.
-/
namespace ScenarioHost.Lua.Library

variable (run : Evaluator)

def itemKey (n : Int) : Value := .number (Double.ofInt n)

def setItem (s : Spot) (t : TableId) (n : Int) (v : Value) : Act Value Unit :=
  Act.updateHeap s.env (·.rawSet t (itemKey n) v)

def tableConcat (s : Spot) (args : List Value) : Act Value (List Value) := do
  let t ← tableArg s args 1
  let table ← readTable s t
  let separator ← optStringArg s args 2 .empty
  let first ← optIntArg s args 3 1
  let last ← optIntArg s args 4 table.length
  let places := (List.range (last - first + 1).toNat).map fun (n : Nat) => first + (n : Int)
  let texts ← places.mapM fun n =>
    let v := table.get (itemKey n)
    match v.toString? with
    | some text => return text.chars
    | none =>
      failure s ("invalid value (" ++ v.typeName ++ ") at index " ++ toString n
        ++ " in table for 'concat'")
  return [.string ⟨String.intercalate separator.chars texts⟩]

def shiftUp (s : Spot) (t : TableId) : (count : Nat) → (place : Int) → Act Value Unit
  | 0, _ => return ()
  | count + 1, place => do
    let v := (← readTable s t).get (itemKey (place - 1))
    setItem s t place v
    shiftUp s t count (place - 1)

def shiftDown (s : Spot) (t : TableId) : (count : Nat) → (place : Int) → Act Value Unit
  | 0, _ => return ()
  | count + 1, place => do
    let v := (← readTable s t).get (itemKey (place + 1))
    setItem s t place v
    shiftDown s t count (place + 1)

def tableInsert (s : Spot) (args : List Value) : Act Value (List Value) := do
  let t ← tableArg s args 1
  let next : Int := (← readTable s t).length + 1
  match args with
  | [_, v] => do
    setItem s t next v
    return []
  | [_, _, v] => do
    let place ← intArg s args 2
    shiftUp s t (max place next - place).toNat (max place next)
    setItem s t place v
    return []
  | _ => failure s "wrong number of arguments to 'insert'"

def tableRemove (s : Spot) (args : List Value) : Act Value (List Value) := do
  let t ← tableArg s args 1
  let size : Int := (← readTable s t).length
  if (Value.arg args 1).isNil then
    if size = 0 then return [.nil]
    else
      let v := (← readTable s t).get (itemKey size)
      setItem s t size .nil
      return [v]
  else
    let place ← intArg s args 2
    if 1 ≤ place ∧ place ≤ size then
      let v := (← readTable s t).get (itemKey place)
      shiftDown s t (size - place).toNat place
      setItem s t size .nil
      return [v]
    else return []

def sortsBefore (s : Spot) (comparator : Value) (a b : Value) : Act Value Bool :=
  match comparator with
  | .function f => do
    return (Value.first (← run .values (.call s.env (s.site none) (.function f) [a, b]))).truthy
  | _ => less run s a b

def insertSorted (before : Value → Value → Act Value Bool) (v : Value) :
    List Value → Act Value (List Value)
  | [] => return [v]
  | w :: rest => do
    if ← before v w then return v :: w :: rest
    else
      let rest ← insertSorted before v rest
      return w :: rest

def mergeSorted (before : Value → Value → Act Value Bool) :
    (fuel : Nat) → List Value → List Value → Act Value (List Value)
  | 0, xs, ys => return xs ++ ys
  | _ + 1, [], ys => return ys
  | _ + 1, xs, [] => return xs
  | fuel + 1, x :: xs, y :: ys => do
    if ← before y x then
      let rest ← mergeSorted before fuel (x :: xs) ys
      return y :: rest
    else
      let rest ← mergeSorted before fuel xs (y :: ys)
      return x :: rest

def sortValues (before : Value → Value → Act Value Bool) :
    (fuel : Nat) → List Value → Act Value (List Value)
  | 0, xs => return xs
  | fuel + 1, xs =>
    if xs.length ≤ 1 then return xs
    else do
      let half := xs.length / 2
      let left ← sortValues before fuel (xs.take half)
      let right ← sortValues before fuel (xs.drop half)
      mergeSorted before (xs.length + 1) left right

def tableSort (s : Spot) (args : List Value) : Act Value (List Value) := do
  let t ← tableArg s args 1
  let comparator ←
    if (Value.arg args 1).isNil then pure Value.nil else functionArg s args 2
  let table ← readTable s t
  let size := table.length
  let values := (List.range size).map fun n => table.getItem (n + 1)
  let sorted ← sortValues (sortsBefore run s comparator) (size + 1) values
  let setAll := fun (h : Heap) => (sorted.zipIdx 1).foldl (fun h v => h.rawSet t (.ofNat v.2) v.1) h
  Act.updateHeap s.env setAll
  return []

def visitFields (s : Spot) (f : Value) : List (Value × Value) → Act Value (List Value)
  | [] => return []
  | (k, v) :: rest => do
    match Value.first (← run .values (.call s.env (s.site none) f [k, v])) with
    | .nil => visitFields s f rest
    | result => return [result]

def tableForeach (s : Spot) (args : List Value) : Act Value (List Value) := do
  let t ← tableArg s args 1
  let f ← functionArg s args 2
  visitFields run s f (← readTable s t).fields

def tableForeachi (s : Spot) (args : List Value) : Act Value (List Value) := do
  let t ← tableArg s args 1
  let f ← functionArg s args 2
  let table ← readTable s t
  visitFields run s f ((List.range table.length).map fun n => (.ofNat (n + 1), table.getItem (n + 1)))

def tableMaxn (s : Spot) (args : List Value) : Act Value (List Value) := do
  let t ← tableArg s args 1
  let keys := (← readTable s t).fields.filterMap fun e =>
    match e.1 with
    | .number x => some x
    | _ => none
  return [.number (keys.foldl (fun a b => if a < b then b else a) 0)]

def tableMove (s : Spot) (args : List Value) : Act Value (List Value) := do
  let source ← tableArg s args 1
  let first ← intArg s args 2
  let last ← intArg s args 3
  let place ← intArg s args 4
  let target ← if (Value.arg args 4).isNil then pure source else tableArg s args 5
  let table ← readTable s source
  let moved := (List.range (last - first + 1).toNat).map fun (n : Nat) =>
    (place + (n : Int), table.get (itemKey (first + (n : Int))))
  moved.forM fun m => setItem s target m.1 m.2
  return [.table target]

def callTable (s : Spot) (f : TableFunction) (args : List Value) : Act Value (List Value) :=
  match f with
  | .concat => tableConcat s args
  | .foreach => tableForeach run s args
  | .foreachi => tableForeachi run s args
  | .getn => do
    let t ← tableArg s args 1
    return [.ofNat (← readTable s t).length]
  | .insert => tableInsert s args
  | .maxn => tableMaxn s args
  | .move => tableMove s args
  | .remove => tableRemove s args
  | .sort => tableSort run s args

end ScenarioHost.Lua.Library
