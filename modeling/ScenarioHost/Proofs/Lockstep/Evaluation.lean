import ScenarioHost.Lua.Eval
import ScenarioHost.Proofs.Lockstep

/-!
Evaluation in lockstep: what a step of a script does by means of an evaluator, it does cut short by
means of one that cuts that evaluator short. No expression, statement, block or call handles errors.
-/
namespace ScenarioHost.Lua

def Evaluator.Cuts {γ : Type} (r : World → Outcome Value γ) (run : (World → World) → Evaluator)
    (run' : Evaluator) : Prop :=
  ∀ k (t : Task k), Act.Cut r (fun stop => run stop k t) (run' k t)

variable {γ : Type} {r : World → Outcome Value γ} {run : (World → World) → Evaluator}
  {run' : Evaluator} (h : Evaluator.Cuts r run run')

include h

theorem cut_callHandler (s : Spot) (event : String) (f : Value) (args : List Value) :
    Act.Cut r (fun stop => callHandler (run stop) s event f args)
      (callHandler run' s event f args) := by
  unfold callHandler
  refine .same_then fun callable => ?_
  split
  · exact h ..
  · exact .same _

theorem cut_apply (s : Spot) (naming : Option Naming) (f : Value) (args : List Value) :
    Act.Cut r (fun stop => apply (run stop) s naming f args) (apply run' s naming f args) := by
  unfold apply
  refine .same_then fun callable => ?_
  split
  · exact h ..
  · exact .same _

theorem cut_index (s : Spot) (fuel : Nat) (naming : Option Naming) (o key : Value) :
    Act.Cut r (fun stop => index (run stop) s fuel naming o key)
      (index run' s fuel naming o key) := by
  induction fuel generalizing naming o with
  | zero => exact .same _
  | succ fuel ih =>
    unfold index
    refine .same_then fun found => ?_
    obtain ⟨v, handler⟩ := found
    cases handler with
    | nil => exact .same _
    | function f => exact (cut_callHandler h ..).then_same
    | _ => exact ih ..

theorem cut_setIndex (s : Spot) (fuel : Nat) (naming : Option Naming) (o key value : Value) :
    Act.Cut r (fun stop => setIndex (run stop) s fuel naming o key value)
      (setIndex run' s fuel naming o key value) := by
  induction fuel generalizing naming o with
  | zero => exact .same _
  | succ fuel ih =>
    unfold setIndex
    refine .same_then fun handler => ?_
    cases handler with
    | nil => exact .same _
    | function f => exact (cut_callHandler h ..).discard
    | _ => exact ih ..

/-- An operation that falls back to a handler, or to something else where there is none. -/
theorem cut_handled {α : Type} {s : Spot} {event : String} {args : List Value} {f : Value}
    {absent : (World → World) → Act Value α} {absent' : Act Value α} {g : List Value → α}
    (habsent : Act.Cut r absent absent') :
    Act.Cut r
      (fun stop =>
        match f with
        | .nil => absent stop
        | f => do return g (← callHandler (run stop) s event f args))
      (match f with
        | .nil => absent'
        | f => do return g (← callHandler run' s event f args)) := by
  cases f with
  | nil => exact habsent
  | _ => exact (cut_callHandler h ..).then_same

theorem cut_arith (s : Spot) (op : BinaryOp) (m n : Option Naming) (a b : Value) :
    Act.Cut r (fun stop => arith (run stop) s op m n a b) (arith run' s op m n a b) := by
  unfold arith
  split
  · exact .same _
  · exact .same_then fun f => cut_handled h (.same _)

theorem cut_negate (s : Spot) (naming : Option Naming) (a : Value) :
    Act.Cut r (fun stop => negate (run stop) s naming a) (negate run' s naming a) := by
  unfold negate
  split
  · exact .same _
  · exact .same_then fun f => cut_handled h (.same _)

theorem cut_length (s : Spot) (naming : Option Naming) (a : Value) :
    Act.Cut r (fun stop => length (run stop) s naming a) (length run' s naming a) := by
  unfold length
  split
  · exact .same _
  · exact .same _
  · exact .same_then fun f => cut_handled h (.same _)

theorem cut_concat (s : Spot) (m n : Option Naming) (a b : Value) :
    Act.Cut r (fun stop => concat (run stop) s m n a b) (concat run' s m n a b) := by
  unfold concat
  split
  · exact .same _
  · exact .same_then fun f => cut_handled h (.same _)

theorem cut_equal (s : Spot) (a b : Value) :
    Act.Cut r (fun stop => equal (run stop) s a b) (equal run' s a b) := by
  unfold equal
  split
  · exact .same _
  · split
    · exact .same_then fun f => cut_handled h (.same _)
    · exact .same_then fun f => cut_handled h (.same _)
    · exact .same _

theorem cut_less (s : Spot) (a b : Value) :
    Act.Cut r (fun stop => less (run stop) s a b) (less run' s a b) := by
  unfold less
  split
  · exact .same _
  · exact .same _
  · split
    · exact .same_then fun f => cut_handled h (.same _)
    · exact .same _

theorem cut_lessEqual (s : Spot) (a b : Value) :
    Act.Cut r (fun stop => lessEqual (run stop) s a b) (lessEqual run' s a b) := by
  unfold lessEqual
  split
  · exact .same _
  · exact .same _
  · split
    · refine .same_then fun f => cut_handled h ?_
      exact .same_then fun f => cut_handled h (.same _)
    · exact .same _

theorem cut_textOf (s : Spot) (v : Value) :
    Act.Cut r (fun stop => textOf (run stop) s v) (textOf run' s v) := by
  unfold textOf
  refine .same_then fun f => ?_
  cases f with
  | nil => exact .same _
  | _ => exact cut_callHandler h ..

theorem cut_one (fr : Frame) (e : Expr) :
    Act.Cut r (fun stop => one (run stop) fr e) (one run' fr e) :=
  (h .values (.expr fr e)).then_same

theorem cut_many (fr : Frame) (es : List Expr) :
    Act.Cut r (fun stop => many (run stop) fr es) (many run' fr es) := by
  induction es with
  | nil => exact .same _
  | cons e rest ih =>
    cases rest with
    | nil => exact h .values (.expr fr e)
    | cons e' rest => exact (cut_one h fr e).bind fun v => ih.then_same

theorem cut_readVariable (fr : Frame) (x : ByteString) :
    Act.Cut r (fun stop => readVariable (run stop) fr x) (readVariable run' fr x) := by
  unfold readVariable
  split
  · exact .same _
  · exact cut_index h ..

theorem cut_writeVariable (fr : Frame) (line : Nat) (x : ByteString) (v : Value) :
    Act.Cut r (fun stop => writeVariable (run stop) fr line x v)
      (writeVariable run' fr line x v) := by
  unfold writeVariable
  split
  · exact .same _
  · exact cut_setIndex h ..

theorem cut_evalBinary (fr : Frame) (op : BinaryOp) (left right : Expr) (line : Nat) :
    Act.Cut r (fun stop => evalBinary (run stop) fr op left right line)
      (evalBinary run' fr op left right line) := by
  unfold evalBinary
  refine (cut_one h fr left).bind fun a => ?_
  refine (cut_one h fr right).bind fun b => ?_
  cases op with
  | concat => exact cut_concat h ..
  | eq => exact (cut_equal h ..).then_same
  | ne => exact (cut_equal h ..).then_same
  | lt => exact (cut_less h ..).then_same
  | le => exact (cut_lessEqual h ..).then_same
  | gt => exact (cut_less h ..).then_same
  | ge => exact (cut_lessEqual h ..).then_same
  | _ => exact cut_arith h ..

theorem cut_evalUnary (fr : Frame) (op : UnaryOp) (operand : Expr) (line : Nat) :
    Act.Cut r (fun stop => evalUnary (run stop) fr op operand line)
      (evalUnary run' fr op operand line) := by
  unfold evalUnary
  refine (cut_one h fr operand).bind fun a => ?_
  cases op with
  | not => exact .same _
  | minus => exact cut_negate h ..
  | length => exact cut_length h ..

theorem cut_fillTable (fr : Frame) (line : Nat) (t : TableId) (place : Nat)
    (fields : List Field) :
    Act.Cut r (fun stop => fillTable (run stop) fr line t place fields)
      (fillTable run' fr line t place fields) := by
  induction fields generalizing place with
  | nil => exact .same _
  | cons field rest ih =>
    cases field with
    | positional e =>
      cases rest with
      | nil => exact (h .values (.expr fr e)).then_same
      | cons field rest =>
        exact (cut_one h fr e).bind fun v => .same_then fun _ => ih (place + 1)
    | keyed k e =>
      refine (cut_one h fr k).bind fun key => ?_
      exact (cut_one h fr e).bind fun v => .same_then fun _ => ih place

/-- The parts of an expression that is a call are found in lockstep. -/
theorem cut_callParts (fr : Frame) (e : Expr) {x : (World → World) → Act Value CallParts}
    {y : Act Value CallParts} (hx : ∀ stop, callParts? (run stop) fr e = some (x stop))
    (hy : callParts? run' fr e = some y) : Act.Cut r x y := by
  cases e with
  | call callee args line =>
    cases funext fun stop => Option.some.inj (hx stop)
    cases hy
    exact (cut_one h fr callee).bind fun v => (cut_many h fr args).then_same
  | method o name args line =>
    cases funext fun stop => Option.some.inj (hx stop)
    cases hy
    refine (cut_one h fr o).bind fun receiver => ?_
    exact (cut_index h ..).bind fun callee => (cut_many h fr args).then_same
  | _ => cases hy

theorem cut_evalCall (fr : Frame) {x : (World → World) → Act Value CallParts}
    {y : Act Value CallParts} (hxy : Act.Cut r x y) :
    Act.Cut r (fun stop => evalCall (run stop) fr (x stop)) (evalCall run' fr y) :=
  hxy.bind fun c => cut_apply h (fr.spot c.line) ..

theorem cut_tailCall (fr : Frame) {x : (World → World) → Act Value CallParts}
    {y : Act Value CallParts} (hxy : Act.Cut r x y) :
    Act.Cut r (fun stop => tailCall (run stop) fr (x stop)) (tailCall run' fr y) := by
  unfold tailCall
  refine hxy.bind fun c => .same_then fun callable => ?_
  split
  · exact h ..
  · exact .same _

theorem cut_evalExpr (fr : Frame) (e : Expr) :
    Act.Cut r (fun stop => evalExpr (run stop) fr e) (evalExpr run' fr e) := by
  cases e with
  | nil | boolean b | number x | string s | vararg | function body => exact .same _
  | name x => exact (cut_readVariable h fr x).then_same
  | index o k line =>
    refine (cut_one h fr o).bind fun object => ?_
    exact (cut_one h fr k).bind fun key => (cut_index h ..).then_same
  | binary op left right line => exact (cut_evalBinary h ..).then_same
  | unary op operand line => exact (cut_evalUnary h ..).then_same
  | and left right =>
    refine (cut_one h fr left).bind fun a => ?_
    split
    · exact (cut_one h fr right).then_same
    · exact .same _
  | or left right =>
    refine (cut_one h fr left).bind fun a => ?_
    split
    · exact .same _
    · exact (cut_one h fr right).then_same
  | table fields line => exact .same_then fun t => (cut_fillTable h ..).then_same
  | paren e => exact (cut_one h fr e).then_same
  | call f args line =>
    exact cut_evalCall h fr (cut_callParts h fr (.call f args line) (fun _ => rfl) rfl)
  | method o name args line =>
    exact cut_evalCall h fr (cut_callParts h fr (.method o name args line) (fun _ => rfl) rfl)

theorem cut_evalTarget (fr : Frame) (e : Expr) :
    Act.Cut r (fun stop => evalTarget (run stop) fr e) (evalTarget run' fr e) := by
  cases e with
  | index o k line => exact (cut_one h fr o).bind fun object => (cut_one h fr k).then_same
  | _ => exact .same _

theorem cut_evalTargets (fr : Frame) (es : List Expr) :
    Act.Cut r (fun stop => evalTargets (run stop) fr es) (evalTargets run' fr es) := by
  induction es with
  | nil => exact .same _
  | cons e rest ih => exact (cut_evalTarget h fr e).bind fun t => ih.then_same

theorem cut_assign (fr : Frame) (line : Nat) (v : Value) (t : Target) :
    Act.Cut r (fun stop => assign (run stop) fr line v t) (assign run' fr line v t) := by
  cases t with
  | variable_ x => exact cut_writeVariable h fr line x v
  | field naming object key => exact cut_setIndex h ..

theorem cut_assignAll (fr : Frame) (line : Nat) (ts : List Target) (vs : List Value) :
    Act.Cut r (fun stop => assignAll (run stop) fr line ts vs) (assignAll run' fr line ts vs) := by
  induction ts generalizing vs with
  | nil => exact .same _
  | cons t ts ih => exact (ih vs.tail).bind fun _ => cut_assign h fr line _ t

theorem cut_runStats (fr : Frame) (body : List Stat) :
    Act.Cut r (fun stop => runStats (run stop) fr body) (runStats run' fr body) := by
  induction body generalizing fr with
  | nil => exact .same _
  | cons s rest ih =>
    refine (h .flow (.stat fr s)).bind fun flow => ?_
    cases flow with
    | next fr' => exact ih fr'
    | _ => exact .same _

theorem cut_runBlock (limit : Nat) (fr : Frame) (body : List Stat) :
    Act.Cut r (fun stop => runBlock (run stop) limit fr body) (runBlock run' limit fr body) := by
  unfold runBlock
  refine .iterate (fun start => ?_) limit (fr, body)
  exact (cut_runStats h start.1 start.2).then_same

theorem cut_runScope (fr : Frame) (body : List Stat) :
    Act.Cut r (fun stop => runScope (run stop) fr body) (runScope run' fr body) :=
  (h .flow (.block fr body)).then_same

theorem cut_whileStep (fr : Frame) (condition : Expr) (body : List Stat) (u : Unit) :
    Act.Cut r (fun stop => whileStep (run stop) fr condition body u)
      (whileStep run' fr condition body u) := by
  unfold whileStep
  refine (cut_one h fr condition).bind fun v => ?_
  split
  · exact (h .flow (.block fr body)).then_same
  · exact .same _

theorem cut_repeatStep (fr : Frame) (body : List Stat) (condition : Expr) (u : Unit) :
    Act.Cut r (fun stop => repeatStep (run stop) fr body condition u)
      (repeatStep run' fr body condition u) := by
  unfold repeatStep
  refine (h .flow (.block fr body)).bind fun flow => ?_
  cases flow with
  | next inner => exact (cut_one h inner condition).then_same
  | _ => exact .same _

theorem cut_countStep (fr : Frame) (x : ByteString) (limit step : Float) (body : List Stat)
    (i : Float) :
    Act.Cut r (fun stop => countStep (run stop) fr x limit step body i)
      (countStep run' fr x limit step body i) := by
  unfold countStep
  by_cases hon : (if 0 ≤ step then decide (i ≤ limit) else decide (limit ≤ i)) = true
  · simp only [if_pos hon]
    exact .same_then fun inner => (h .flow (.block inner body)).then_same
  · simp only [if_neg hon]
    exact .same _

theorem cut_eachStep (fr : Frame) (names : List ByteString) (f state : Value) (body : List Stat)
    (line : Nat) (control : Value) :
    Act.Cut r (fun stop => eachStep (run stop) fr names f state body line control)
      (eachStep run' fr names f state body line control) := by
  unfold eachStep
  refine (cut_apply h ..).bind fun vs => ?_
  cases Value.first vs with
  | nil => exact .same _
  | _ => exact .same_then fun inner => (h .flow (.block inner body)).then_same

theorem cut_return (fr : Frame) (e : Expr) (limit : Nat) :
    Act.Cut r (fun stop => evalStat (run stop) limit fr (.ret [e]))
      (evalStat run' limit fr (.ret [e])) := by
  -- a returned call is a tail call on both sides
  cases e with
  | call f args line =>
    exact (cut_tailCall h fr (cut_callParts h fr (.call f args line) (fun _ => rfl) rfl)).then_same
  | method o name args line =>
    have hparts := cut_callParts h fr (.method o name args line) (fun _ => rfl) rfl
    exact (cut_tailCall h fr hparts).then_same
  | _ => exact (h .values (.expr fr _)).then_same

theorem cut_evalStat (limit : Nat) (fr : Frame) (s : Stat) :
    Act.Cut r (fun stop => evalStat (run stop) limit fr s) (evalStat run' limit fr s) := by
  cases s with
  | localDecl names values => exact (cut_many h fr values).then_same
  | localFunction x body =>
    exact .same_then fun fr' => .same_then fun f => (cut_writeVariable h ..).then_same
  | assign targets values line =>
    refine (cut_evalTargets h fr targets).bind fun ts => ?_
    exact (cut_many h fr values).bind fun vs => (cut_assignAll h ..).then_same
  | call e => exact (h .values (.expr fr e)).discard.then_same
  | block body => exact cut_runScope h fr body
  | whileLoop condition body => exact .iterate (cut_whileStep h fr condition body) limit ()
  | repeatLoop body condition => exact .iterate (cut_repeatStep h fr body condition) limit ()
  | branch condition body otherwise =>
    refine (cut_one h fr condition).bind fun v => ?_
    split <;> exact cut_runScope h fr _
  | count x start stop step body line =>
    refine (cut_one h fr start).bind fun a => (cut_one h fr stop).bind fun b => ?_
    -- the loop from its step on, which may be left out
    have loop (c : Value) : Act.Cut r _ _ :=
      .same_then (x := loopNumber fr line "initial value" a) fun i =>
      .same_then (x := loopNumber fr line "limit" b) fun bound =>
      .same_then (x := loopNumber fr line "step" c) fun by_ =>
        .iterate (cut_countStep h fr x bound by_ body) limit i
    cases step with
    | some e => exact (cut_one h fr e).bind loop
    | none => exact loop (.ofNat 1)
  | each names values body line =>
    refine (cut_many h fr values).bind fun vs => ?_
    exact .iterate (cut_eachStep h fr names _ _ body line) limit _
  | ret es =>
    cases es with
    | nil => exact (cut_many h fr []).then_same
    | cons e rest =>
      cases rest with
      | nil => exact cut_return h fr e limit
      | cons e' rest => exact (cut_many h fr _).then_same
  | breakOut | jump label | label x => exact .same _

theorem cut_callClosure (env : EnvironmentId) (site : Site) (body : FunctionBody)
    (chunk : ByteString) (globals : TableId) (captured : Variables) (args : List Value) :
    Act.Cut r (fun stop => callClosure (run stop) env site body chunk globals captured args)
      (callClosure run' env site body chunk globals captured args) :=
  .same_then fun fr => (h .flow (.block fr body.body)).then_same

end ScenarioHost.Lua
