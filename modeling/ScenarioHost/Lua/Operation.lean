import ScenarioHost.Lua.Task

/-!
Operations on values: access to fields, arithmetic, comparison, concatenation and calls. Handlers
in metatables take over where the values themselves do not know what to do.
-/
namespace ScenarioHost.Lua

variable (run : Evaluator)

def callHandler (s : Spot) (event : String) (f : Value) (args : List Value) :
    Act Value (List Value) := do
  if ← Act.readHeap s.env (·.isCallable f) then
    run .values (.call s.env (s.site (some ⟨"metamethod", ⟨event⟩⟩)) f args)
  else s.raise (⟨"attempt to call "⟩ ++ described none f)

def apply (s : Spot) (naming : Option Naming) (f : Value) (args : List Value) :
    Act Value (List Value) := do
  if ← Act.readHeap s.env (·.isCallable f) then
    run .values (.call s.env (s.site naming) f args)
  else s.raise (⟨"attempt to call "⟩ ++ described naming f)

def chainLimit : Nat := 100

def fieldOrHandler (h : Heap) (o key : Value) : Value × Value :=
  match o with
  | .table t =>
    match h.rawGet t key with
    | .nil => (.nil, h.handler o "__index")
    | v => (v, .nil)
  | _ => (.nil, h.handler o "__index")

def index (s : Spot) : (fuel : Nat) → (naming : Option Naming) → (o key : Value) → Act Value Value
  | 0, _, _, _ => s.raise ⟨"loop in gettable"⟩
  | fuel + 1, naming, o, key => do
    let (v, handler) ← Act.readHeap s.env fun h => fieldOrHandler h o key
    match handler with
    | .nil =>
      match o with
      | .table _ => return v
      | _ => s.raise (⟨"attempt to index "⟩ ++ described naming o)
    | .function _ => return Value.first (← callHandler run s "index" handler [o, key])
    | _ => index s fuel none handler key

/-- Sets a field without handlers; some keys are refused. -/
def setField (s : Spot) (t : TableId) (key value : Value) : Act Value Unit :=
  match key with
  | .nil => s.raise ⟨"table index is nil"⟩
  | .number x =>
    if x == x then Act.updateHeap s.env (·.rawSet t key value) else s.raise ⟨"table index is NaN"⟩
  | _ => Act.updateHeap s.env (·.rawSet t key value)

def setIndex (s : Spot) :
    (fuel : Nat) → (naming : Option Naming) → (o key value : Value) → Act Value Unit
  | 0, _, _, _, _ => s.raise ⟨"loop in settable"⟩
  | fuel + 1, naming, o, key, value => do
    let handler ← Act.readHeap s.env fun h =>
      match o with
      | .table t => if (h.rawGet t key).isNil then h.handler o "__newindex" else .nil
      | _ => h.handler o "__newindex"
    match handler with
    | .nil =>
      match o with
      | .table t => setField s t key value
      | _ => s.raise (⟨"attempt to index "⟩ ++ described naming o)
    | .function _ => discard (callHandler run s "newindex" handler [o, key, value])
    | _ => setIndex s fuel none handler key value

/-- The arithmetic on numbers; a remainder has the sign of its divisor. -/
def arithmetic (op : BinaryOp) (x y : Float) : Float :=
  match op with
  | .add => x + y
  | .sub => x - y
  | .mul => x * y
  | .div => x / y
  | .mod => x - (x / y).floor * y
  | _ => Float.pow x y

def BinaryOp.event : BinaryOp → String
  | .add => "add"
  | .sub => "sub"
  | .mul => "mul"
  | .div => "div"
  | .mod => "mod"
  | .pow => "pow"
  | .concat => "concat"
  | .eq | .ne => "eq"
  | .lt | .gt => "lt"
  | .le | .ge => "le"

def handlerOfTwo (h : Heap) (event : String) (a b : Value) : Value :=
  match h.handler a event with
  | .nil => h.handler b event
  | f => f

def arith (s : Spot) (op : BinaryOp) (namingA namingB : Option Naming) (a b : Value) :
    Act Value Value :=
  match a.toNumber?, b.toNumber? with
  | some x, some y => return .number (arithmetic op x y)
  | x, _ => do
    match ← Act.readHeap s.env fun h => handlerOfTwo h ("__" ++ op.event) a b with
    | .nil =>
      let blamed := if x.isSome then described namingB b else described namingA a
      s.raise (⟨"attempt to perform arithmetic on "⟩ ++ blamed)
    | f => return Value.first (← callHandler run s op.event f [a, b])

def negate (s : Spot) (naming : Option Naming) (a : Value) : Act Value Value :=
  match a.toNumber? with
  | some x => return .number (-x)
  | none => do
    match ← Act.readHeap s.env fun h => h.handler a "__unm" with
    | .nil => s.raise (⟨"attempt to perform arithmetic on "⟩ ++ described naming a)
    | f => return Value.first (← callHandler run s "unm" f [a, a])

def length (s : Spot) (naming : Option Naming) (a : Value) : Act Value Value :=
  match a with
  | .string t => return .ofNat t.size
  | .table t => Act.readHeap s.env fun h => .ofNat (h.table t).length
  | _ => do
    match ← Act.readHeap s.env fun h => h.handler a "__len" with
    | .nil => s.raise (⟨"attempt to get length of "⟩ ++ described naming a)
    | f => return Value.first (← callHandler run s "len" f [a])

def concat (s : Spot) (namingA namingB : Option Naming) (a b : Value) : Act Value Value :=
  match a.toString?, b.toString? with
  | some x, some y => return .string (x ++ y)
  | x, _ => do
    match ← Act.readHeap s.env fun h => handlerOfTwo h "__concat" a b with
    | .nil =>
      let blamed := if x.isSome then described namingB b else described namingA a
      s.raise (⟨"attempt to concatenate "⟩ ++ blamed)
    | f => return Value.first (← callHandler run s "concat" f [a, b])

/-- The handler that two values share for an event; nil when they do not. -/
def sharedHandler (h : Heap) (event : String) (a b : Value) : Value :=
  let f := h.handler a event
  if f.same (h.handler b event) then f else .nil

def equal (s : Spot) (a b : Value) : Act Value Bool :=
  if a.same b then return true
  else
    match a, b with
    | .table _, .table _ | .userdata _, .userdata _ => do
      match ← Act.readHeap s.env fun h => sharedHandler h "__eq" a b with
      | .nil => return false
      | f => return (Value.first (← callHandler run s "eq" f [a, b])).truthy
    | _, _ => return false

def raiseCompare {α : Type} (s : Spot) (a b : Value) : Act Value α :=
  if a.typeName = b.typeName then s.raise ⟨"attempt to compare two " ++ a.typeName ++ " values"⟩
  else s.raise ⟨"attempt to compare " ++ a.typeName ++ " with " ++ b.typeName⟩

def less (s : Spot) (a b : Value) : Act Value Bool :=
  match a, b with
  | .number x, .number y => return decide (x < y)
  | .string x, .string y => return x.less y
  | _, _ =>
    if a.typeName = b.typeName then do
      match ← Act.readHeap s.env fun h => sharedHandler h "__lt" a b with
      | .nil => raiseCompare s a b
      | f => return (Value.first (← callHandler run s "lt" f [a, b])).truthy
    else raiseCompare s a b

/-- `a ≤ b`; where there is no handler for it, that `b < a` does not hold. -/
def lessEqual (s : Spot) (a b : Value) : Act Value Bool :=
  match a, b with
  | .number x, .number y => return decide (x ≤ y)
  | .string x, .string y => return !y.less x
  | _, _ =>
    if a.typeName = b.typeName then do
      match ← Act.readHeap s.env fun h => sharedHandler h "__le" a b with
      | .nil =>
        match ← Act.readHeap s.env fun h => sharedHandler h "__lt" a b with
        | .nil => raiseCompare s b a
        | f => return !(Value.first (← callHandler run s "lt" f [b, a])).truthy
      | f => return (Value.first (← callHandler run s "le" f [a, b])).truthy
    else raiseCompare s a b

/-- The text of a value: what its `__tostring` handler gives, be it a string or not, else the plain
one. -/
def textOf (s : Spot) (v : Value) : Act Value (List Value) := do
  match ← Act.readHeap s.env fun h => h.handler v "__tostring" with
  | .nil => Act.readHeap s.env fun h => [.string (h.plainText v)]
  | f => callHandler run s "tostring" f [v]

end ScenarioHost.Lua
