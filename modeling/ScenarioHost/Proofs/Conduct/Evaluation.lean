import ScenarioHost.Lua.Eval
import ScenarioHost.Proofs.Regime

/-!
Evaluation is lawful under every regime: expressions, statements, blocks and calls of script
functions only see and change the environment they belong to, as long as the evaluators they are
handed do. Where it takes an evaluator, a function is compared with itself under another one.
-/
namespace ScenarioHost.Lua

variable {R : Regime} {run run' : Evaluator} (h : R.Lawful run run')

include h

theorem within_callHandler (s : Spot) (event : String) (f : Value) (args : List Value) :
    R.Beside s.env (callHandler run s event f args) (callHandler run' s event f args) := by
  unfold callHandler
  refine .bind (within_read_heap _) fun callable _ => ?_
  split
  · exact h.call s.env ..
  · exact within_raise s _

theorem within_apply (s : Spot) (naming : Option Naming) (f : Value) (args : List Value) :
    R.Beside s.env (apply run s naming f args) (apply run' s naming f args) := by
  unfold apply
  refine .bind (within_read_heap _) fun callable _ => ?_
  split
  · exact h.call ..
  · exact within_raise s _

theorem within_index (s : Spot) (fuel : Nat) (naming : Option Naming) (o key : Value) :
    R.Beside s.env (index run s fuel naming o key) (index run' s fuel naming o key) := by
  induction fuel generalizing naming o with
  | zero => exact within_raise s _
  | succ fuel ih =>
    unfold index
    refine .bind (within_read_heap _) fun found _ => ?_
    split -- names the value that was found and the handler
    split
    · split
      · exact .pure trivial
      · exact within_raise s _
    · exact .bind (within_callHandler h s _ _ _) fun _ _ => .pure trivial
    · exact ih _ _

omit h in
theorem within_setField (s : Spot) (t : TableId) (key value : Value) :
    R.Within s.env (setField s t key value) := by
  unfold setField
  split
  · exact within_raise s _
  · split
    · exact within_update_heap _ fun h => .raw_set h ..
    · exact within_raise s _
  · exact within_update_heap _ fun h => .raw_set h ..

theorem within_setIndex (s : Spot) (fuel : Nat) (naming : Option Naming) (o key value : Value) :
    R.Beside s.env (setIndex run s fuel naming o key value)
      (setIndex run' s fuel naming o key value) := by
  induction fuel generalizing naming o with
  | zero => exact within_raise s _
  | succ fuel ih =>
    unfold setIndex
    refine .bind (within_read_heap _) fun handler _ => ?_
    split
    · split
      · exact within_setField s ..
      · exact within_raise s _
    · exact (within_callHandler h s ..).discard
    · exact ih _ _

/-- An operation that falls back to a handler, or to something else where there is none. -/
theorem within_handled {α : Type} {s : Spot} {event : String} {args : List Value} {f : Value}
    {absent absent' : Act Value α} {g : List Value → α} (habsent : R.Beside s.env absent absent') :
    R.Beside s.env
      (match f with
        | .nil => absent
        | f => do return g (← callHandler run s event f args))
      (match f with
        | .nil => absent'
        | f => do return g (← callHandler run' s event f args)) := by
  split
  · exact habsent
  · exact .bind (within_callHandler h s event _ args) fun _ _ => .pure trivial

theorem within_arith (s : Spot) (op : BinaryOp) (m n : Option Naming) (a b : Value) :
    R.Beside s.env (arith run s op m n a b) (arith run' s op m n a b) := by
  unfold arith
  split
  · exact .pure trivial
  · exact .bind (within_read_heap _) fun f _ => within_handled h (within_raise s _)

theorem within_negate (s : Spot) (naming : Option Naming) (a : Value) :
    R.Beside s.env (negate run s naming a) (negate run' s naming a) := by
  unfold negate
  split
  · exact .pure trivial
  · exact .bind (within_read_heap _) fun f _ => within_handled h (within_raise s _)

theorem within_length (s : Spot) (naming : Option Naming) (a : Value) :
    R.Beside s.env (length run s naming a) (length run' s naming a) := by
  unfold length
  split
  · exact .pure trivial
  · exact within_read_heap _
  · exact .bind (within_read_heap _) fun f _ => within_handled h (within_raise s _)

theorem within_concat (s : Spot) (m n : Option Naming) (a b : Value) :
    R.Beside s.env (concat run s m n a b) (concat run' s m n a b) := by
  unfold concat
  split
  · exact .pure trivial
  · exact .bind (within_read_heap _) fun f _ => within_handled h (within_raise s _)

theorem within_equal (s : Spot) (a b : Value) :
    R.Beside s.env (equal run s a b) (equal run' s a b) := by
  unfold equal
  split
  · exact .pure trivial
  · split
    · exact .bind (within_read_heap _) fun f _ => within_handled h (.pure trivial)
    · exact .bind (within_read_heap _) fun f _ => within_handled h (.pure trivial)
    · exact .pure trivial

omit h in
theorem within_raiseCompare {α : Type} (s : Spot) (a b : Value) :
    R.Within s.env (raiseCompare s a b : Act Value α) := by
  unfold raiseCompare
  split <;> exact within_raise s _

theorem within_less (s : Spot) (a b : Value) :
    R.Beside s.env (less run s a b) (less run' s a b) := by
  unfold less
  split
  · exact .pure trivial
  · exact .pure trivial
  · split
    · exact .bind (within_read_heap _) fun f _ => within_handled h (within_raiseCompare s a b)
    · exact within_raiseCompare s a b

theorem within_lessEqual (s : Spot) (a b : Value) :
    R.Beside s.env (lessEqual run s a b) (lessEqual run' s a b) := by
  unfold lessEqual
  split
  · exact .pure trivial
  · exact .pure trivial
  · split
    · refine .bind (within_read_heap _) fun f _ => within_handled h ?_
      exact .bind (within_read_heap _) fun f _ => within_handled h (within_raiseCompare s b a)
    · exact within_raiseCompare s a b

theorem within_textOf (s : Spot) (v : Value) :
    R.Beside s.env (textOf run s v) (textOf run' s v) := by
  unfold textOf
  refine .bind (within_read_heap _) fun f _ => ?_
  split
  · exact within_read_heap _
  · exact within_callHandler h s ..

theorem within_one (fr : Frame) (e : Expr) : R.Beside fr.env (one run fr e) (one run' fr e) :=
  .bind (h.expr fr e) fun _ _ => .pure trivial

theorem within_many (fr : Frame) (es : List Expr) :
    R.Beside fr.env (many run fr es) (many run' fr es) := by
  induction es with
  | nil => exact .pure trivial
  | cons e rest ih =>
    cases rest with
    | nil => exact h.expr fr e
    | cons e' rest =>
      refine .bind (within_one h fr e) fun v _ => ?_
      exact .bind ih fun vs _ => .pure trivial

omit h in
/-- A declaration leaves everything of the frame but its variables as it is. -/
theorem by_declare (fr : Frame) (x : ByteString) (v : Value) :
    R.By (.code fr.env) (·.env = fr.env) (declare fr x v) (declare fr x v) := by
  unfold declare
  refine .bind (within_read_heap _) fun c _ => ?_
  refine .bind (within_update_heap _ fun h => .of_cells h _) fun _ _ => ?_
  exact .pure rfl

omit h in
theorem by_declareAll {e : EnvironmentId} (fr : Frame) (xs : List ByteString) (vs : List Value)
    (hfr : fr.env = e) :
    R.By (.code e) (·.env = e) (declareAll fr xs vs) (declareAll fr xs vs) := by
  induction xs generalizing fr vs with
  | nil => exact .pure hfr
  | cons x xs ih =>
    subst hfr
    exact .bind (by_declare fr x _) fun fr' hfr' => ih fr' vs.tail hfr'

omit h in
theorem within_makeClosure (fr : Frame) (body : FunctionBody) :
    R.Within fr.env (makeClosure fr body) := by
  unfold makeClosure
  refine .bind (within_read_heap _) fun f _ => ?_
  refine .bind (within_update_heap _ fun h => .add_function h _ fun c => ?_) fun _ _ => ?_
  · exact Function.noConfusion
  · exact .pure trivial

theorem within_readVariable (fr : Frame) (x : ByteString) :
    R.Beside fr.env (readVariable run fr x) (readVariable run' fr x) := by
  unfold readVariable
  split
  · exact within_read_heap _
  · exact within_index h (fr.spot 0) ..

theorem within_writeVariable (fr : Frame) (line : Nat) (x : ByteString) (v : Value) :
    R.Beside fr.env (writeVariable run fr line x v) (writeVariable run' fr line x v) := by
  unfold writeVariable
  split
  · exact within_update_heap _ fun h => .of_cells h _
  · exact within_setIndex h (fr.spot line) ..

theorem within_evalBinary (fr : Frame) (op : BinaryOp) (left right : Expr) (line : Nat) :
    R.Beside fr.env (evalBinary run fr op left right line)
      (evalBinary run' fr op left right line) := by
  unfold evalBinary
  refine .bind (within_one h fr left) fun a _ => ?_
  refine .bind (within_one h fr right) fun b _ => ?_
  -- the four comparisons are two, either way round
  have order (c d : Value) : R.Beside fr.env (do return .boolean (← less run (fr.spot line) c d) :
      Act Value Value)
      (do return .boolean (← less run' (fr.spot line) c d) :
      Act Value Value) :=
    .bind (within_less h (fr.spot line) c d) fun _ _ => .pure trivial
  have orderEq (c d : Value) : R.Beside fr.env
      (do return .boolean (← lessEqual run (fr.spot line) c d) : Act Value Value)
      (do return .boolean (← lessEqual run' (fr.spot line) c d) :
      Act Value Value) :=
    .bind (within_lessEqual h (fr.spot line) c d) fun _ _ => .pure trivial
  dsimp only
  split
  · exact within_concat h (fr.spot line) ..
  · exact .bind (within_equal h (fr.spot line) a b) fun _ _ => .pure trivial
  · exact .bind (within_equal h (fr.spot line) a b) fun _ _ => .pure trivial
  · exact order a b
  · exact orderEq a b
  · exact order b a
  · exact orderEq b a
  · exact within_arith h (fr.spot line) ..

theorem within_evalUnary (fr : Frame) (op : UnaryOp) (operand : Expr) (line : Nat) :
    R.Beside fr.env (evalUnary run fr op operand line) (evalUnary run' fr op operand line) := by
  unfold evalUnary
  refine .bind (within_one h fr operand) fun a _ => ?_
  split
  · exact .pure trivial
  · exact within_negate h (fr.spot line) ..
  · exact within_length h (fr.spot line) ..

omit h in
theorem within_appendItems (e : EnvironmentId) (t : TableId) (place : Nat) (vs : List Value) :
    R.Within e (appendItems e t place vs) := by
  induction vs generalizing place with
  | nil => exact .pure trivial
  | cons v rest ih =>
    exact .bind (within_update_heap _ fun h => .of_table h t _) fun _ _ => ih (place + 1)

theorem within_fillTable (fr : Frame) (line : Nat) (t : TableId) (place : Nat)
    (fields : List Field) :
    R.Beside fr.env (fillTable run fr line t place fields)
      (fillTable run' fr line t place fields) := by
  induction fields generalizing place with
  | nil => exact .pure trivial
  | cons field rest ih =>
    cases field with
    | positional e =>
      cases rest with
      | nil => exact .bind (h.expr fr e) fun vs _ => within_appendItems ..
      | cons field rest =>
        refine .bind (within_one h fr e) fun v _ => ?_
        exact .bind (within_appendItems ..) fun _ _ => ih (place + 1)
    | keyed k e =>
      refine .bind (within_one h fr k) fun key _ => ?_
      refine .bind (within_one h fr e) fun v _ => ?_
      exact .bind (within_setField (fr.spot line) ..) fun _ _ => ih place

omit h in
theorem within_makeTable (e : EnvironmentId) : R.Within e (makeTable e) := by
  unfold makeTable
  refine .bind (within_read_heap _) fun t _ => ?_
  exact .bind (within_update_heap _ fun h => .add_table h _) fun _ _ => .pure trivial

theorem within_callParts (fr : Frame) (e : Expr) :
    Option.Rel (R.Beside fr.env) (callParts? run fr e) (callParts? run' fr e) := by
  cases e with
  | call f args line =>
    refine .some (.bind (within_one h fr f) fun callee _ => ?_)
    exact .bind (within_many h fr args) fun vs _ => .pure trivial
  | method o name args line =>
    refine .some (.bind (within_one h fr o) fun receiver _ => ?_)
    refine .bind (within_index h (fr.spot line) ..) fun callee _ => ?_
    exact .bind (within_many h fr args) fun vs _ => .pure trivial
  | _ => exact .none

theorem within_evalCall (fr : Frame) {x y : Act Value CallParts} (hparts : R.Beside fr.env x y) :
    R.Beside fr.env (evalCall run fr x) (evalCall run' fr y) :=
  .bind hparts fun c _ => within_apply h (fr.spot c.line) ..

theorem within_tailCall (fr : Frame) {x y : Act Value CallParts} (hparts : R.Beside fr.env x y) :
    R.Beside fr.env (tailCall run fr x) (tailCall run' fr y) := by
  unfold tailCall
  refine .bind hparts fun c _ => ?_
  refine .bind (within_read_heap _) fun callable _ => ?_
  split
  · exact h.call ..
  · exact within_raise (fr.spot c.line) _

/-- An expression changes only its environment. -/
theorem within_evalExpr (fr : Frame) (e : Expr) :
    R.Beside fr.env (evalExpr run fr e) (evalExpr run' fr e) := by
  unfold evalExpr
  split
  · exact .pure trivial
  · exact .pure trivial
  · exact .pure trivial
  · exact .pure trivial
  · exact .pure trivial
  · exact .bind (within_makeClosure fr _) fun _ _ => .pure trivial
  · exact .bind (within_readVariable h fr _) fun _ _ => .pure trivial
  · refine .bind (within_one h fr _) fun object _ => ?_
    refine .bind (within_one h fr _) fun key _ => ?_
    exact .bind (within_index h (fr.spot _) ..) fun _ _ => .pure trivial
  · exact .bind (within_evalBinary h fr ..) fun _ _ => .pure trivial
  · exact .bind (within_evalUnary h fr ..) fun _ _ => .pure trivial
  · refine .bind (within_one h fr _) fun a _ => ?_
    split
    · exact .bind (within_one h fr _) fun _ _ => .pure trivial
    · exact .pure trivial
  · refine .bind (within_one h fr _) fun a _ => ?_
    split
    · exact .pure trivial
    · exact .bind (within_one h fr _) fun _ _ => .pure trivial
  · refine .bind (within_makeTable fr.env) fun t _ => ?_
    exact .bind (within_fillTable h fr ..) fun _ _ => .pure trivial
  · exact .bind (within_one h fr _) fun _ _ => .pure trivial
  · rename_i f args line
    cases within_callParts h fr (.call f args line) with
    | some hparts => exact within_evalCall h fr hparts
  · rename_i o name args line
    cases within_callParts h fr (.method o name args line) with
    | some hparts => exact within_evalCall h fr hparts

theorem within_evalTarget (fr : Frame) (e : Expr) :
    R.Beside fr.env (evalTarget run fr e) (evalTarget run' fr e) := by
  unfold evalTarget
  split
  · refine .bind (within_one h fr _) fun object _ => ?_
    exact .bind (within_one h fr _) fun key _ => .pure trivial
  · exact .pure trivial
  · exact .pure trivial

theorem within_evalTargets (fr : Frame) (es : List Expr) :
    R.Beside fr.env (evalTargets run fr es) (evalTargets run' fr es) := by
  induction es with
  | nil => exact .pure trivial
  | cons e rest ih =>
    refine .bind (within_evalTarget h fr e) fun t _ => ?_
    exact .bind ih fun ts _ => .pure trivial

theorem within_assign (fr : Frame) (line : Nat) (v : Value) (t : Target) :
    R.Beside fr.env (assign run fr line v t) (assign run' fr line v t) := by
  cases t with
  | variable_ x => exact within_writeVariable h fr line x v
  | field naming object key => exact within_setIndex h (fr.spot line) ..

theorem within_assignAll (fr : Frame) (line : Nat) (ts : List Target) (vs : List Value) :
    R.Beside fr.env (assignAll run fr line ts vs) (assignAll run' fr line ts vs) := by
  induction ts generalizing vs with
  | nil => exact .pure trivial
  | cons t ts ih => exact .bind (ih vs.tail) fun _ _ => within_assign h fr line _ t

theorem by_runStats {e : EnvironmentId} (fr : Frame) (body : List Stat) (hfr : fr.env = e) :
    R.By (.code e) (Flow.In e) (runStats run fr body) (runStats run' fr body) := by
  induction body generalizing fr with
  | nil => exact .pure hfr
  | cons s rest ih =>
    subst hfr
    refine .bind (h.stat fr s) fun flow hflow => ?_
    split
    · exact ih _ hflow -- the rest runs in the frame that the statement left off in
    · exact .pure rfl
    · exact .pure trivial
    · exact .pure trivial

/-- A block keeps to its environment however often it jumps; between jumps, the frame that it goes
on in belongs to that environment. -/
theorem by_runBlock (limit : Nat) (fr : Frame) (body : List Stat) :
    R.By (.code fr.env) (Flow.In fr.env) (runBlock run limit fr body)
      (runBlock run' limit fr body) := by
  unfold runBlock
  refine .iterate (fun start : Frame × List Stat => start.1.env = fr.env) ?_ limit _ rfl
  intro start hstart
  refine .bind (by_runStats h start.1 start.2 hstart) fun flow hflow => ?_
  split
  · split
    · exact .pure hflow
    · exact .pure hflow
  · exact .pure hflow

theorem by_runScope (fr : Frame) (body : List Stat) :
    R.By (.code fr.env) (Flow.In fr.env) (runScope run fr body) (runScope run' fr body) := by
  unfold runScope
  refine .bind (h.block fr body) fun flow hflow => ?_
  split
  · exact .pure rfl
  · exact .pure hflow

omit h in
/-- What a loop goes on with. -/
theorem Flow.In.afterBody {fr : Frame} {flow : Flow} (hflow : Flow.In fr.env flow) {σ : Type}
    (again : σ) :
    Sum.elim (fun _ => True) (Flow.In fr.env) (Lua.afterBody fr flow again) := by
  cases flow with
  | next _ => exact trivial
  | broke => exact rfl
  | returned _ => exact trivial
  | jumped _ _ => exact hflow

omit h in
theorem within_loopNumber (fr : Frame) (line : Nat) (what : String) (v : Value) :
    R.Within fr.env (loopNumber fr line what v) := by
  unfold loopNumber
  split
  · exact .pure trivial
  · exact within_raise (fr.spot line) _

/-- The body of a loop, run in a frame of the environment. -/
theorem by_loopBody {fr inner : Frame} (hinner : inner.env = fr.env) (body : List Stat) {σ : Type}
    (again : σ) :
    R.By (.code fr.env) (Sum.elim (fun _ => True) (Flow.In fr.env))
      (do return afterBody fr (← run .flow (.block inner body)) again : Act Value (Sum σ Flow))
      (do return afterBody fr (← run' .flow (.block inner body)) again : Act Value (Sum σ Flow)) := by
  have hbody := h.block inner body
  rw [hinner] at hbody
  exact .bind hbody fun flow hflow => .pure (hflow.afterBody again)

theorem by_whileLoop (limit : Nat) (fr : Frame) (condition : Expr) (body : List Stat) :
    R.By (.code fr.env) (Flow.In fr.env) (Act.iterate (whileStep run fr condition body) limit ())
      (Act.iterate (whileStep run' fr condition body) limit ()) := by
  refine .iterate (fun _ => True) ?_ limit _ trivial
  intro _ _
  unfold whileStep
  refine .bind (within_one h fr condition) fun v _ => ?_
  split
  · exact by_loopBody h rfl body ()
  · exact .pure rfl

theorem by_repeatLoop (limit : Nat) (fr : Frame) (body : List Stat) (condition : Expr) :
    R.By (.code fr.env) (Flow.In fr.env) (Act.iterate (repeatStep run fr body condition) limit ())
      (Act.iterate (repeatStep run' fr body condition) limit ()) := by
  refine .iterate (fun _ => True) ?_ limit _ trivial
  intro _ _
  unfold repeatStep
  refine .bind (h.block fr body) fun flow hflow => ?_
  split
  · -- the condition sees the variables of the body
    rename_i inner
    have hinner : inner.env = fr.env := hflow
    have hcondition := within_one h inner condition
    rw [hinner] at hcondition
    refine .bind hcondition fun v _ => ?_
    split
    · exact .pure rfl
    · exact .pure trivial
  · exact .pure rfl
  · exact .pure hflow

theorem by_countLoop (rounds : Nat) (fr : Frame) (x : ByteString) (limit step i : Float)
    (body : List Stat) :
    R.By (.code fr.env) (Flow.In fr.env) (Act.iterate (countStep run fr x limit step body) rounds i)
      (Act.iterate (countStep run' fr x limit step body) rounds i) := by
  refine .iterate (fun _ => True) ?_ rounds i trivial
  intro i _
  unfold countStep
  by_cases hon : (if 0 ≤ step then decide (i ≤ limit) else decide (limit ≤ i)) = true
  · rw [if_pos hon, if_pos hon]
    exact .bind (by_declare fr x (.number i)) fun inner hinner => by_loopBody h hinner body _
  · rw [if_neg hon, if_neg hon]
    exact .pure rfl

theorem by_countFrom (rounds : Nat) (fr : Frame) (x : ByteString) (a b c : Value) (body : List Stat)
    (line : Nat) :
    R.By (.code fr.env) (Flow.In fr.env) (do
        let i ← loopNumber fr line "initial value" a
        let bound ← loopNumber fr line "limit" b
        let by_ ← loopNumber fr line "step" c
        Act.iterate (countStep run fr x bound by_ body) rounds i)
      (do
        let i ← loopNumber fr line "initial value" a
        let bound ← loopNumber fr line "limit" b
        let by_ ← loopNumber fr line "step" c
        Act.iterate (countStep run' fr x bound by_ body) rounds i) := by
  refine .bind (within_loopNumber fr ..) fun i _ => ?_
  refine .bind (within_loopNumber fr ..) fun bound _ => ?_
  refine .bind (within_loopNumber fr ..) fun by_ _ => ?_
  exact by_countLoop h rounds fr ..

theorem by_eachLoop (rounds : Nat) (fr : Frame) (names : List ByteString) (f state control : Value)
    (body : List Stat) (line : Nat) :
    R.By (.code fr.env) (Flow.In fr.env)
      (Act.iterate (eachStep run fr names f state body line) rounds control)
      (Act.iterate (eachStep run' fr names f state body line) rounds control) := by
  refine .iterate (fun _ => True) ?_ rounds control trivial
  intro control _
  unfold eachStep
  refine .bind (within_apply h (fr.spot line) ..) fun vs _ => ?_
  split
  · exact .pure rfl
  · exact .bind (by_declareAll fr names vs rfl) fun inner hinner => by_loopBody h hinner body _

omit h in
theorem by_returned {fr : Frame} {x y : Act Value (List Value)} (hx : R.Beside fr.env x y) :
    R.By (.code fr.env) (Flow.In fr.env) (do return .returned (← x) : Act Value Flow)
      (do return .returned (← y)) :=
  .bind hx fun _ _ => .pure trivial

/-- A statement changes only its environment, and leaves off in a frame of it. -/
theorem by_evalStat (limit : Nat) (fr : Frame) (s : Stat) :
    R.By (.code fr.env) (Flow.In fr.env) (evalStat run limit fr s) (evalStat run' limit fr s) := by
  unfold evalStat
  split
  · refine .bind (within_many h fr _) fun vs _ => ?_
    exact .bind (by_declareAll fr _ vs rfl) fun inner hinner => .pure hinner
  · refine .bind (by_declare fr _ .nil) fun inner hinner => ?_
    rw [← hinner]
    refine .bind (within_makeClosure inner _) fun f _ => ?_
    exact .bind (within_writeVariable h inner ..) fun _ _ => .pure rfl
  · refine .bind (within_evalTargets h fr _) fun ts _ => ?_
    refine .bind (within_many h fr _) fun vs _ => ?_
    exact .bind (within_assignAll h fr ..) fun _ _ => .pure rfl
  · exact .bind (h.expr fr _).discard fun _ _ => .pure rfl
  · exact by_runScope h fr _
  · exact by_whileLoop h limit fr ..
  · exact by_repeatLoop h limit fr ..
  · refine .bind (within_one h fr _) fun v _ => ?_
    split <;> exact by_runScope h fr _
  · rename_i x start stop step body line
    refine .bind (within_one h fr start) fun a _ => ?_
    refine .bind (within_one h fr stop) fun b _ => ?_
    -- the step of a counted loop is one unless it is given
    have loop (c : Value) := by_countFrom h limit fr x a b c body line
    dsimp only
    split
    · exact .bind (within_one h fr _) fun c _ => loop c
    · exact .bind (Q := fun _ => True) (.pure trivial) fun c _ => loop c
  · refine .bind (within_many h fr _) fun vs _ => ?_
    exact by_eachLoop h limit fr ..
  · rename_i e
    have hparts := within_callParts h fr e
    generalize callParts? run fr e = x at hparts
    generalize callParts? run' fr e = y at hparts
    cases hparts with
    | some hparts => exact by_returned (within_tailCall h fr hparts)
    | none => exact by_returned (h.expr fr e)
  · exact by_returned (within_many h fr _)
  · exact .pure trivial
  · exact .pure rfl
  · exact .pure rfl

/-- A call of a script function changes only the environment it is called in. -/
theorem within_callClosure (e : EnvironmentId) (site : Site) (body : FunctionBody)
    (chunk : ByteString) (globals : TableId) (captured : Variables) (args : List Value) :
    R.Beside e (callClosure run e site body chunk globals captured args)
      (callClosure run' e site body chunk globals captured args) := by
  unfold callClosure
  refine .bind (by_declareAll _ body.params args rfl) fun fr hfr => ?_
  subst hfr
  refine .bind (h.block fr body.body) fun flow _ => ?_
  split <;> exact .pure trivial

omit h in
theorem within_loadChunk (e : EnvironmentId) (name source : ByteString) :
    R.Within e (loadChunk e name source) := by
  unfold loadChunk
  split
  · exact .pure trivial
  · refine .bind (within_read_heap _) fun f _ => ?_
    refine .bind (Regime.within_view (World.seen_environment e _)) fun globals _ => ?_
    refine .bind (within_update_heap _ fun h => .add_function h _ fun c => ?_) fun _ _ => ?_
    · exact Function.noConfusion
    · exact .pure trivial

end ScenarioHost.Lua
