import ScenarioHost.Lua.Library.Argument

/-!
The basic functions: types and conversion, tables and metatables, errors, and loading of text.
-/
namespace ScenarioHost.Lua.Library

variable (run : Evaluator)

def protectedCall (s : Spot) (f : Value) (args : List Value) :
    Act Value (Except Value (List Value)) :=
  (run .values (.call s.env (s.site none) f args)).attempt

def assert (s : Spot) (args : List Value) : Act Value (List Value) := do
  if (← anyArg s args 1).truthy then return args
  else
    match args with
    | [_] => failure s "assertion failed!"
    | _ :: .string text :: _ => Act.raise (.string (positionText s.callers 1 ++ text))
    | _ => Act.raise (args.getLast?.getD .nil)

/-- Raises a value; a message gets the position of a caller in front. -/
def error (s : Spot) (args : List Value) : Act Value (List Value) := do
  let level ← optIntArg s args 2 1
  match (Value.arg args 0).toString? with
  | some text =>
    if 0 < level then Act.raise (.string (positionText s.callers level.toNat ++ text))
    else Act.raise (Value.arg args 0)
  | none => Act.raise (Value.arg args 0)

def shownMetatable (h : Heap) (v : Value) : Value :=
  match h.metatable? v with
  | none => .nil
  | some m =>
    match h.rawGet m (.text "__metatable") with
    | .nil => .table m
    | shown => shown

def getmetatable (s : Spot) (args : List Value) : Act Value (List Value) := do
  let v ← anyArg s args 1
  return [← Act.readHeap s.env fun h => shownMetatable h v]

def setmetatable (s : Spot) (args : List Value) : Act Value (List Value) := do
  let t ← tableArg s args 1
  let set (m : Option TableId) : Act Value (List Value) := do
    if ← Act.readHeap s.env fun h => (h.handler (.table t) "__metatable").isNil then
      Act.updateHeap s.env (·.setMetatable t m)
      return [.table t]
    else failure s "cannot change a protected metatable"
  match args.tail with
  | .nil :: _ => set none
  | .table m :: _ => set (some m)
  | _ => argFailure s 2 "nil or table expected"

def nextField (s : Spot) (args : List Value) : Act Value (List Value) := do
  let t ← tableArg s args 1
  match (← readTable s t).next? (Value.arg args 1) with
  | none => Act.raise (.text "invalid key to 'next'")
  | some none => return [.nil]
  | some (some (k, v)) => return [k, v]

def isBuiltin (b : Builtin) : Function → Bool
  | .builtin c => decide (c = b)
  | _ => false

def builtinValue (s : Spot) (b : Builtin) : Act Value Value := do
  match ← Act.readHeap s.env fun h => h.functions.findIdx? (isBuiltin b) with
  | some n => return .function ⟨n⟩
  | none => do
    let f ← Act.readHeap s.env (·.nextFunction)
    Act.updateHeap s.env (·.addFunction (.builtin b))
    return .function f

def pairs (s : Spot) (args : List Value) : Act Value (List Value) := do
  let t ← tableArg s args 1
  return [← builtinValue s (.base .next), .table t, .nil]

def ipairs (s : Spot) (args : List Value) : Act Value (List Value) := do
  let t ← tableArg s args 1
  return [← builtinValue s (.base .ipairsNext), .table t, .ofNat 0]

def ipairsNext (s : Spot) (args : List Value) : Act Value (List Value) := do
  let t ← tableArg s args 1
  let n := (← intArg s args 2) + 1
  match (← readTable s t).get (.number (Double.ofInt n)) with
  | .nil => return []
  | v => return [.number (Double.ofInt n), v]

def pcall (s : Spot) (args : List Value) : Act Value (List Value) := do
  let f ← anyArg s args 1
  match ← protectedCall run s f args.tail with
  | .ok vs => return .boolean true :: vs
  | .error v => return [.boolean false, v]

/-- Calls a function; an error goes through a handler while its callers are still there. -/
def xpcall (s : Spot) (args : List Value) : Act Value (List Value) := do
  let handler ← functionArg s args 2
  match ← protectedCall run s (Value.arg args 0) (args.drop 2) with
  | .ok vs => return .boolean true :: vs
  | .error v =>
    match ← protectedCall run s handler [v] with
    | .ok vs => return [.boolean false, Value.first vs]
    | .error _ => return [.boolean false, .text "error in error handling"]

def rawequal (s : Spot) (args : List Value) : Act Value (List Value) := do
  let a ← anyArg s args 1
  let b ← anyArg s args 2
  return [.boolean (a.same b)]

def rawget (s : Spot) (args : List Value) : Act Value (List Value) := do
  let t ← tableArg s args 1
  let k ← anyArg s args 2
  return [(← readTable s t).get k]

def rawset (s : Spot) (args : List Value) : Act Value (List Value) := do
  let t ← tableArg s args 1
  let k ← anyArg s args 2
  let v ← anyArg s args 3
  setField s t k v
  return [.table t]

def select (s : Spot) (args : List Value) : Act Value (List Value) := do
  let rest := args.tail
  match args with
  | .string ⟨"#"⟩ :: _ => return [.ofNat rest.length]
  | _ =>
    let n ← intArg s args 1
    if 0 < n then return rest.drop (n - 1).toNat
    else if n < 0 ∧ n.natAbs ≤ rest.length then return rest.drop (rest.length - n.natAbs)
    else argFailure s 1 "index out of range"

def parseBase (base : Nat) (text : List Char) : Option Float :=
  let value (c : Char) : Nat :=
    if isDigit c then c.toNat - 48
    else
      let l := lowerAscii c
      if 'a' ≤ l ∧ l ≤ 'z' then l.toNat - 87 else 99
  let (negative, rest) := splitSign (text.dropWhile isSpace)
  let digits := rest.takeWhile fun c => value c < base
  if digits.isEmpty ∨ !(rest.drop digits.length).all isSpace then none
  else some (Double.ofRatio negative (digits.foldl (fun n c => n * base + value c) 0) 1)

def tonumber (s : Spot) (args : List Value) : Act Value (List Value) := do
  let base ← optIntArg s args 2 10
  if base = 10 then
    let v ← anyArg s args 1
    return [(v.toNumber?.map Value.number).getD .nil]
  else
    let text ← stringArg s args 1
    if base < 2 ∨ 36 < base then argFailure s 2 "base out of range"
    else return [((parseBase base.toNat text.toList).map Value.number).getD .nil]

def tostring (s : Spot) (args : List Value) : Act Value (List Value) := do
  textOf run s (← anyArg s args 1)

def typeOf (s : Spot) (args : List Value) : Act Value (List Value) := do
  return [.text (← anyArg s args 1).typeName]

def unpack (s : Spot) (args : List Value) : Act Value (List Value) := do
  let t ← tableArg s args 1
  let table ← readTable s t
  let first ← optIntArg s args 2 1
  let last ← optIntArg s args 3 table.length
  let count := (last - first + 1).toNat
  if 8000 ≤ count then failure s "too many results to unpack"
  else
    return (List.range count).map fun (n : Nat) =>
      table.get (.number (Double.ofInt (first + (n : Int))))

def newproxy (s : Spot) (args : List Value) : Act Value (List Value) := do
  let make (m : Option TableId) : Act Value (List Value) := do
    let u ← Act.readHeap s.env (·.nextUserdata)
    Act.updateHeap s.env (·.addUserdata ⟨.blank, m⟩)
    return [.userdata u]
  match Value.arg args 0 with
  | .nil | .boolean false => make none
  | .boolean true => do
    match ← newTable s .empty with
    | .table m => make (some m)
    | _ => make none
  | .userdata u => do make (← Act.readHeap s.env fun h => h.metatable? (.userdata u))
  | _ => argFailure s 1 "boolean or proxy expected"

/-- Compiles text; a failure is given back, not raised. -/
def loadText (s : Spot) (text name : ByteString) : Act Value (List Value) := do
  match ← run .loaded (.load s.env name text) with
  | .ok f => return [.function f]
  | .error e => return [.nil, .string e.message]

def loadstring (s : Spot) (args : List Value) : Act Value (List Value) := do
  let text ← stringArg s args 1
  let name ← optStringArg s args 2 text
  loadText run s text name

def gatherPieces (s : Spot) (f : Value) (limit : Nat) : Act Value ByteString :=
  Act.iterate (fun text => do
    match Value.first (← run .values (.call s.env (s.site none) f [])) with
    | .nil => return .inr text
    | .string piece => return (if piece.chars.isEmpty then .inr text else .inl (text ++ piece))
    | _ => failure s "reader function must return a string") limit ByteString.empty

/-- Compiles text that a function gives in pieces; an error of that function is given back like one
of the text. -/
def load (limit : Nat) (s : Spot) (args : List Value) : Act Value (List Value) := do
  match Value.arg args 0 with
  | .function f => do
    let name ← optStringArg s args 2 ⟨"=(load)"⟩
    match ← (gatherPieces run s (.function f) limit).attempt with
    | .ok text => loadText run s text name
    | .error v => return [.nil, v]
  | _ => loadstring run s args

def getfenv (s : Spot) (args : List Value) : Act Value (List Value) :=
  Act.read fun w =>
    let e := w.environment s.env
    match Value.arg args 0 with
    | .function f =>
      match e.heap.function? f with
      | some (.closure _ _ globals _) => [.table globals]
      | _ => [.table e.globals]
    | _ => [.table e.globals]

def setfenv (s : Spot) (args : List Value) : Act Value (List Value) := do
  let t ← tableArg s args 2
  match Value.arg args 0 with
  | .function f => do
    match ← Act.readHeap s.env (·.function? f) with
    | some (.closure body chunk _ captured) => do
      Act.updateHeap s.env fun h =>
        { h with functions := h.functions.setIfInBounds f.index (.closure body chunk t captured) }
      return [.function f]
    | _ => failure s "'setfenv' cannot change environment of given object"
  | _ => failure s "'setfenv' cannot change environment of given object"

def collectgarbage (s : Spot) (args : List Value) : Act Value (List Value) := do
  match (← optStringArg s args 1 ⟨"collect"⟩).chars with
  | "count" => Act.readHeap s.env fun h =>
      [.ofNat (64 + (h.tables.size + h.functions.size + h.cells.size) / 16)]
  | "step" => return [.boolean true]
  | "isrunning" => return [.boolean true]
  | "collect" | "stop" | "restart" | "setpause" | "setstepmul" => return [.ofNat 0]
  | other => argFailure s 1 ("invalid option '" ++ other ++ "'")

def callBase (limit : Nat) (s : Spot) (f : BaseFunction) (args : List Value) :
    Act Value (List Value) :=
  match f with
  | .assert => assert s args
  | .collectgarbage => collectgarbage s args
  | .error => error s args
  | .getfenv => getfenv s args
  | .getmetatable => getmetatable s args
  | .ipairs => ipairs s args
  | .ipairsNext => ipairsNext s args
  | .load => load run limit s args
  | .loadstring => loadstring run s args
  | .newproxy => newproxy s args
  | .next => nextField s args
  | .pairs => pairs s args
  | .pcall => pcall run s args
  | .rawequal => rawequal s args
  | .rawget => rawget s args
  | .rawset => rawset s args
  | .select => select s args
  | .setfenv => setfenv s args
  | .setmetatable => setmetatable s args
  | .tonumber => tonumber s args
  | .tostring => tostring run s args
  | .type => typeOf s args
  | .unpack => unpack s args
  | .xpcall => xpcall run s args

end ScenarioHost.Lua.Library
