import ScenarioHost.Lua.Operation

/-!
One step of running a script: what an expression, a statement, a block or a call of a script
function asks to be done, and what becomes of it.
-/
namespace ScenarioHost.Lua

variable (run : Evaluator)

def one (fr : Frame) (e : Expr) : Act Value Value := do
  return Value.first (← run .values (.expr fr e))

/-- The values of a list of expressions; the last one may give any number of them. -/
def many (fr : Frame) : List Expr → Act Value (List Value)
  | [] => return []
  | [e] => run .values (.expr fr e)
  | e :: rest => do
    let v ← one run fr e
    let vs ← many fr rest
    return v :: vs

def declare (fr : Frame) (x : ByteString) (v : Value) : Act Value Frame := do
  let c ← Act.readHeap fr.env (·.nextCell)
  Act.updateHeap fr.env (·.addCell v)
  return { fr with locals := (x, c) :: fr.locals }

/-- Adds variables; those without a value are nil. -/
def declareAll (fr : Frame) : List ByteString → List Value → Act Value Frame
  | [], _ => return fr
  | x :: xs, vs => do
    let fr ← declare fr x (Value.first vs)
    declareAll fr xs vs.tail

def makeClosure (fr : Frame) (body : FunctionBody) : Act Value Value := do
  let f ← Act.readHeap fr.env (·.nextFunction)
  Act.updateHeap fr.env
    (·.addFunction (.closure body fr.chunk fr.globals (fr.locals ++ fr.upvalues)))
  return .function f

def findVariable? (fr : Frame) (x : ByteString) : Option CellId :=
  match Frame.find x fr.locals with
  | some c => some c
  | none => Frame.find x fr.upvalues

/-- Reads a variable; what is no local variable is a field of the globals. -/
def readVariable (fr : Frame) (x : ByteString) : Act Value Value :=
  match findVariable? fr x with
  | some c => Act.readHeap fr.env (·.cell c)
  | none => index run (fr.spot 0) chainLimit none (.table fr.globals) (.string x)

def writeVariable (fr : Frame) (line : Nat) (x : ByteString) (v : Value) : Act Value Unit :=
  match findVariable? fr x with
  | some c => Act.updateHeap fr.env (·.setCell c v)
  | none => setIndex run (fr.spot line) chainLimit none (.table fr.globals) (.string x) v

def evalBinary (fr : Frame) (op : BinaryOp) (left right : Expr) (line : Nat) : Act Value Value := do
  let a ← one run fr left
  let b ← one run fr right
  let s := fr.spot line
  match op with
  | .concat => concat run s (fr.naming? left) (fr.naming? right) a b
  | .eq => return .boolean (← equal run s a b)
  | .ne => return .boolean (!(← equal run s a b))
  | .lt => return .boolean (← less run s a b)
  | .le => return .boolean (← lessEqual run s a b)
  | .gt => return .boolean (← less run s b a)
  | .ge => return .boolean (← lessEqual run s b a)
  | _ => arith run s op (fr.naming? left) (fr.naming? right) a b

def evalUnary (fr : Frame) (op : UnaryOp) (operand : Expr) (line : Nat) : Act Value Value := do
  let a ← one run fr operand
  match op with
  | .not => return .boolean (!a.truthy)
  | .minus => negate run (fr.spot line) (fr.naming? operand) a
  | .length => length run (fr.spot line) (fr.naming? operand) a

def appendItems (env : EnvironmentId) (t : TableId) (place : Nat) : List Value → Act Value Unit
  | [] => return ()
  | v :: rest => do
    Act.updateHeap env fun h =>
      { h with tables := h.tables.modify t.index fun table =>
          if table.items.size = place then { table with items := table.items.push v }
          else table.set (.ofNat (place + 1)) v }
    appendItems env t (place + 1) rest

/-- Fills a new table; `place` counts the positional fields so far. -/
def fillTable (fr : Frame) (line : Nat) (t : TableId) : (place : Nat) → List Field → Act Value Unit
  | _, [] => return ()
  | place, [.positional e] => do
    let vs ← run .values (.expr fr e)
    appendItems fr.env t place vs
  | place, .positional e :: rest => do
    let v ← one run fr e
    appendItems fr.env t place [v]
    fillTable fr line t (place + 1) rest
  | place, .keyed k e :: rest => do
    let key ← one run fr k
    let v ← one run fr e
    setField (fr.spot line) t key v
    fillTable fr line t place rest

def makeTable (env : EnvironmentId) : Act Value TableId := do
  let t ← Act.readHeap env (·.nextTable)
  Act.updateHeap env (·.addTable .empty)
  return t

structure CallParts where
  callee : Value
  naming : Option Naming
  args : List Value
  line : Nat

/-- Evaluates the parts of a call; `none` for other expressions. -/
def callParts? (fr : Frame) : Expr → Option (Act Value CallParts)
  | .call f args line => some do
    let callee ← one run fr f
    let vs ← many run fr args
    return ⟨callee, fr.naming? f, vs, line⟩
  | .method o name args line => some do
    let receiver ← one run fr o
    let callee ← index run (fr.spot line) chainLimit (fr.naming? o) receiver (.string name)
    let vs ← many run fr args
    return ⟨callee, some ⟨"method", name⟩, receiver :: vs, line⟩
  | _ => none

def evalCall (fr : Frame) (parts : Act Value CallParts) : Act Value (List Value) := do
  let c ← parts
  apply run (fr.spot c.line) c.naming c.callee c.args

def tailCall (fr : Frame) (parts : Act Value CallParts) : Act Value (List Value) := do
  let c ← parts
  if ← Act.readHeap fr.env (·.isCallable c.callee) then
    run .values (.call fr.env fr.site c.callee c.args)
  else (fr.spot c.line).raise (⟨"attempt to call "⟩ ++ described c.naming c.callee)

def evalExpr (fr : Frame) (e : Expr) : Act Value (List Value) :=
  match e with
  | .nil => return [.nil]
  | .boolean b => return [.boolean b]
  | .number x => return [.number x]
  | .string s => return [.string s]
  | .vararg => return fr.varargs
  | .function body => do return [← makeClosure fr body]
  | .name x => do return [← readVariable run fr x]
  | .index o k line => do
    let object ← one run fr o
    let key ← one run fr k
    return [← index run (fr.spot line) chainLimit (fr.naming? o) object key]
  | .binary op left right line => do return [← evalBinary run fr op left right line]
  | .unary op operand line => do return [← evalUnary run fr op operand line]
  | .and left right => do
    let a ← one run fr left
    if a.truthy then return [← one run fr right] else return [a]
  | .or left right => do
    let a ← one run fr left
    if a.truthy then return [a] else return [← one run fr right]
  | .table fields line => do
    let t ← makeTable fr.env
    fillTable run fr line t 0 fields
    return [.table t]
  | .paren e => do return [← one run fr e]
  | .call .. | .method .. =>
    match callParts? run fr e with
    | some parts => evalCall run fr parts
    | none => return []

inductive Target where
  | variable_ (x : ByteString)
  | field (naming : Option Naming) (object key : Value)

def evalTarget (fr : Frame) : Expr → Act Value Target
  | .index o k _ => do
    let object ← one run fr o
    let key ← one run fr k
    return .field (fr.naming? o) object key
  | .name x => return .variable_ x
  | _ => return .variable_ .empty

def evalTargets (fr : Frame) : List Expr → Act Value (List Target)
  | [] => return []
  | e :: rest => do
    let t ← evalTarget run fr e
    let ts ← evalTargets fr rest
    return t :: ts

def assign (fr : Frame) (line : Nat) (v : Value) : Target → Act Value Unit
  | .variable_ x => writeVariable run fr line x v
  | .field naming object key => setIndex run (fr.spot line) chainLimit naming object key v

def assignAll (fr : Frame) (line : Nat) : List Target → List Value → Act Value Unit
  | [], _ => return ()
  | t :: ts, vs => do
    assignAll fr line ts vs.tail
    assign run fr line (Value.first vs) t

def declared : Stat → Nat
  | .localDecl names _ => names.length
  | .localFunction .. => 1
  | _ => 0

def afterLabel? (label : ByteString) : (seen : Nat) → List Stat → Option (Nat × List Stat)
  | _, [] => none
  | n, .label x :: rest => if x = label then some (n, rest) else afterLabel? label n rest
  | n, s :: rest => afterLabel? label (n + declared s) rest

def runStats : Frame → List Stat → Act Value Flow
  | fr, [] => return .next fr
  | fr, s :: rest => do
    match ← run .flow (.stat fr s) with
    | .next fr => runStats fr rest
    | .jumped label _ => return .jumped label fr
    | .broke => return .broke
    | .returned vs => return .returned vs

/-- Runs a block; a jump to one of its labels goes on from there with the variables that are in
sight at the label. -/
def runBlock (limit : Nat) (fr : Frame) (body : List Stat) : Act Value Flow :=
  Act.iterate (fun (start : Frame × List Stat) => do
    match ← runStats run start.1 start.2 with
    | .jumped label frame =>
      match afterLabel? label fr.locals.length body with
      | some (n, rest) => return .inl (frame.restrict n, rest)
      | none => return .inr (.jumped label frame)
    | flow => return .inr flow) limit (fr, body)

def runScope (fr : Frame) (body : List Stat) : Act Value Flow := do
  match ← run .flow (.block fr body) with
  | .next _ => return .next fr
  | flow => return flow

def afterBody (fr : Frame) (flow : Flow) {σ : Type} (again : σ) : Sum σ Flow :=
  match flow with
  | .next _ => .inl again
  | .broke => .inr (.next fr)
  | flow => .inr flow

def whileStep (fr : Frame) (condition : Expr) (body : List Stat) (_ : Unit) :
    Act Value (Sum Unit Flow) := do
  if (← one run fr condition).truthy then
    return afterBody fr (← run .flow (.block fr body)) ()
  else return .inr (.next fr)

def repeatStep (fr : Frame) (body : List Stat) (condition : Expr) (_ : Unit) :
    Act Value (Sum Unit Flow) := do
  match ← run .flow (.block fr body) with
  | .next inner =>
    if (← one run inner condition).truthy then return .inr (.next fr) else return .inl ()
  | .broke => return .inr (.next fr)
  | flow => return .inr flow

def loopNumber (fr : Frame) (line : Nat) (what : String) (v : Value) : Act Value Float :=
  match v.toNumber? with
  | some x => return x
  | none => (fr.spot line).raise ⟨"'for' " ++ what ++ " must be a number"⟩

def countStep (fr : Frame) (x : ByteString) (limit step : Float) (body : List Stat) (i : Float) :
    Act Value (Sum Float Flow) := do
  if (if 0 ≤ step then decide (i ≤ limit) else decide (limit ≤ i)) then
    let inner ← declare fr x (.number i)
    return afterBody fr (← run .flow (.block inner body)) (i + step)
  else return .inr (.next fr)

def eachStep (fr : Frame) (names : List ByteString) (f state : Value) (body : List Stat)
    (line : Nat) (control : Value) : Act Value (Sum Value Flow) := do
  let vs ← apply run (fr.spot line) none f [state, control]
  match Value.first vs with
  | .nil => return .inr (.next fr)
  | v => do
    let inner ← declareAll fr names vs
    return afterBody fr (← run .flow (.block inner body)) v

def evalStat (limit : Nat) (fr : Frame) (s : Stat) : Act Value Flow :=
  match s with
  | .localDecl names values => do
    let vs ← many run fr values
    return .next (← declareAll fr names vs)
  | .localFunction x body => do
    let fr ← declare fr x .nil
    let f ← makeClosure fr body
    writeVariable run fr 0 x f
    return .next fr
  | .assign targets values line => do
    let ts ← evalTargets run fr targets
    let vs ← many run fr values
    assignAll run fr line ts vs
    return .next fr
  | .call e => do
    discard (run .values (.expr fr e))
    return .next fr
  | .block body => runScope run fr body
  | .whileLoop condition body => Act.iterate (whileStep run fr condition body) limit ()
  | .repeatLoop body condition => Act.iterate (repeatStep run fr body condition) limit ()
  | .branch condition body otherwise => do
    if (← one run fr condition).truthy then runScope run fr body else runScope run fr otherwise
  | .count x start stop step body line => do
    let a ← one run fr start
    let b ← one run fr stop
    let c ← match step with
      | some e => one run fr e
      | none => pure (.ofNat 1)
    let i ← loopNumber fr line "initial value" a
    let bound ← loopNumber fr line "limit" b
    let by_ ← loopNumber fr line "step" c
    Act.iterate (countStep run fr x bound by_ body) limit i
  | .each names values body line => do
    let vs ← many run fr values
    Act.iterate (eachStep run fr names (Value.arg vs 0) (Value.arg vs 1) body line) limit
      (Value.arg vs 2)
  | .ret [e] =>
    match callParts? run fr e with
    | some parts => do return .returned (← tailCall run fr parts)
    | none => do return .returned (← run .values (.expr fr e))
  | .ret es => do return .returned (← many run fr es)
  | .breakOut => return .broke
  | .jump label => return .jumped label fr
  | .label _ => return .next fr

def callClosure (env : EnvironmentId) (site : Site) (body : FunctionBody) (chunk : ByteString)
    (globals : TableId) (captured : Variables) (args : List Value) : Act Value (List Value) := do
  let varargs := if body.vararg then args.drop body.params.length else []
  let fr ← declareAll ⟨env, chunk, globals, [], captured, varargs, site⟩ body.params args
  match ← run .flow (.block fr body.body) with
  | .returned vs => return vs
  | _ => return []

def loadChunk (env : EnvironmentId) (name source : ByteString) :
    Act Value (Except SyntaxError FunctionId) :=
  match compile name source with
  | .error e => return .error e
  | .ok chunk => do
    let f ← Act.readHeap env (·.nextFunction)
    let globals ← Act.read fun w => (w.environment env).globals
    Act.updateHeap env (·.addFunction (.closure (.mk [] true chunk.body 0) chunk.name globals []))
    return .ok f

end ScenarioHost.Lua
