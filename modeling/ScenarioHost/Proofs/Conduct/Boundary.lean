import ScenarioHost.Proofs.Conduct.Strings

/-!
What crosses the boundary between host and scripts is lawful for the environment on its other side:
calls and errors, the texts that `print` writes, arguments, and classes.
-/
namespace ScenarioHost

open Lua (Evaluator FunctionId Heap Site Spot TableId Value)
open Lua (within_attempt within_callHandler within_index within_read_heap within_setIndex
  within_update_heap)

variable {R : Regime} {run run' : Evaluator} {e : EnvironmentId}

namespace Boundary

theorem within_raiseIn {α : Type} (cause : HostError) :
    R.Within e (raiseIn e cause : Act Value α) := by
  unfold raiseIn
  refine .bind (within_read_heap _) fun u _ => ?_
  refine .bind (within_update_heap _ fun h => .add_userdata h _ fun s heq => ?_) fun _ _ => ?_
  · cases heq
  · exact .raise _

/-- What the host does for a script that calls it, in the world of the call. -/
theorem bound_inScript {α : Type} {x y : Act HostError α} {w : World}
    (h : (R.bound (.code e)).Holds w (fun _ => True) x y) :
    (R.bound (.code e)).Holds w (fun _ => True) (inScript e x) (inScript e y) := by
  unfold inScript
  refine Law.bind_admits (Q := fun _ => True) ?_ fun r _ => ?_
  · exact (R.bound _).attempt h (fun _ _ => trivial) fun _ => trivial
  · split
    · exact .pure trivial
    · exact within_raiseIn _

theorem within_inScript {α : Type} {x y : Act HostError α} (h : R.Beside e x y) :
    R.Beside e (inScript e x) (inScript e y) := ⟨fun w => bound_inScript (h.holds w)⟩

/-- Nothing is left to do for an action that gives up. -/
theorem from_host_starve {α : Type} (run : Evaluator) (site : Site) :
    fromHost run e site (Act.starve : Act Value α) = Act.starve := rfl

section Lawful

variable (h : R.Lawful run run')

include h

theorem within_textOf (s : Spot) (v : Value) :
    R.Beside s.env (textOf run s v) (textOf run' s v) := by
  unfold textOf
  refine .bind (within_read_heap _) fun f _ => ?_
  split
  · exact within_read_heap _
  · refine .bind (within_callHandler h s ..) fun vs _ => ?_
    split
    · exact .pure trivial
    · exact .raise _

theorem within_errorOf {ε : Type} (site : Site) (v : Value) :
    R.Beside e (errorOf run e site v : Act ε HostError) (errorOf run' e site v) := by
  unfold errorOf
  refine .bind (within_read_heap _) fun r _ => ?_
  split
  · exact .pure trivial
  · refine .bind (within_attempt (within_textOf h ⟨e, site, none⟩ v)) fun r _ => ?_
    split <;> exact .pure trivial

theorem within_fromHost {α : Type} (site : Site) {x y : Act Value α} (hx : R.Beside e x y) :
    R.Beside e (fromHost run e site x) (fromHost run' e site y) := by
  unfold fromHost
  refine .bind (within_attempt hx) fun r _ => ?_
  split
  · exact .pure trivial
  · exact .bind (within_errorOf h site _) fun cause _ => .raise _

theorem within_call (site : Site) (f : Value) (args : List Value) :
    R.Beside e (call run e site f args) (call run' e site f args) :=
  within_fromHost h site (h.call ..)

/-- Calls are lawful for all environments, since they are halted in those that are not free. -/
theorem law_call (site : Site) (f : Value) (args : List Value) :
    (R.law (.code e)).Admits (fun _ => True) (call run e site f args)
      (call run' e site f args) := by
  by_cases he : R.Free (.code e)
  · exact (within_call h site f args).law he
  · unfold call
    rw [h.halted .values (.call e site f args) he, from_host_starve]
    exact .starve _

theorem within_getField (site : Site) (o : Value) (key : String) :
    R.Beside e (getField run e site o key) (getField run' e site o key) :=
  within_fromHost h site (within_index h ⟨e, site, none⟩ ..)

theorem within_getGlobal (site : Site) (name : String) :
    R.Beside e (getGlobal run e site name) (getGlobal run' e site name) :=
  .bind (Regime.within_view (World.seen_environment e fun x => Value.table x.globals)) fun g _ =>
    within_getField h site g name

theorem within_setGlobal (site : Site) (name : String) (v : Value) :
    R.Beside e (setGlobal run e site name v) (setGlobal run' e site name v) :=
  .bind (Regime.within_view (World.seen_environment e fun x => Value.table x.globals)) fun _ _ =>
    within_fromHost h site (within_setIndex h ⟨e, site, none⟩ ..)

theorem within_hasFunction {ε : Type} (site : Site) (name : String) :
    R.Beside e (hasFunction run e site name : Act ε Bool)
      (hasFunction run' e site name : Act ε Bool) := by
  unfold hasFunction
  refine .bind (within_attempt (within_getGlobal h site name)) fun r _ => ?_
  split <;> exact .pure trivial

theorem within_callGlobal (site : Site) (name : String) (args : List Value) :
    R.Beside e (callGlobal run e site name args) (callGlobal run' e site name args) := by
  unfold callGlobal
  refine .bind (within_getGlobal h site name) fun v _ => ?_
  refine .bind (within_read_heap _) fun x _ => ?_
  exact .bind (.of_except fun _ _ => trivial) fun f _ => within_call h site ..

end Lawful

end Boundary

namespace Printing

variable (h : R.Lawful run run')

include h

theorem within_valueText {ε : Type} (s : Spot) (v : Value) :
    R.Beside s.env (valueText run s v : Act ε (Option String))
      (valueText run' s v : Act ε (Option String)) := by
  unfold valueText
  split
  · exact .pure trivial
  · exact .pure trivial
  · exact .pure trivial
  · exact .pure trivial
  · refine .bind (within_read_heap _) fun r _ => ?_
    split
    · exact .pure trivial
    · refine .bind (within_attempt (Boundary.within_textOf h s v)) fun r _ => ?_
      split <;> exact .pure trivial

theorem within_fieldText {ε : Type} (s : Spot) (key value : Value) :
    R.Beside s.env (fieldText run s key value : Act ε String)
      (fieldText run' s key value : Act ε String) := by
  refine .bind (within_valueText h s key) fun k _ => ?_
  exact .bind (within_valueText h s value) fun v _ => .pure trivial

theorem within_fieldTexts {ε : Type} (s : Spot) (t : TableId) (left : Nat) (key : Value) :
    R.Beside s.env (fieldTexts run s t left key : Act ε (List String))
      (fieldTexts run' s t left key : Act ε (List String)) := by
  induction left generalizing key with
  | zero => exact .starve _
  | succ left ih =>
    refine .bind (within_read_heap _) fun r _ => ?_
    split
    · refine .bind (within_fieldText h s ..) fun text _ => ?_
      exact .bind (ih _) fun rest _ => .pure trivial
    · exact .pure trivial

theorem within_tableText {ε : Type} (s : Spot) (t : TableId) :
    R.Beside s.env (tableText run s t : Act ε String) (tableText run' s t : Act ε String) := by
  exact .bind (within_fieldTexts h s ..) fun texts _ => .pure trivial

theorem within_argumentText {ε : Type} (s : Spot) (a : Argument) :
    R.Beside s.env (argumentText run s a : Act ε (Option String))
      (argumentText run' s a : Act ε (Option String)) := by
  unfold argumentText
  split
  · exact .bind (within_tableText h s _) fun text _ => .pure trivial
  · exact within_valueText h s _
  · exact .pure trivial

theorem within_restText {ε : Type} (s : Spot) (args : List Argument) :
    R.Beside s.env (restText run s args : Act ε String) (restText run' s args : Act ε String) := by
  induction args with
  | nil => exact .pure trivial
  | cons a rest ih =>
    refine .bind (within_argumentText h s a) fun text _ => ?_
    exact .bind ih fun after _ => .pure trivial

theorem within_line {ε : Type} (s : Spot) (args : List Argument) :
    R.Beside s.env (line run s args : Act ε String) (line run' s args : Act ε String) := by
  cases args with
  | nil => exact .pure trivial
  | cons a rest =>
    refine .bind (within_argumentText h s a) fun text _ => ?_
    exact .bind (within_restText h s rest) fun after _ => .pure trivial

end Printing

/-! Actions that look at a heap and do nothing else. -/

namespace Act

variable {ε ε' α β : Type}

def Consults (e : EnvironmentId) (p : Heap → Except ε α) (x : Act ε α) : Prop :=
  x = readHeap e p >>= ofExcept

namespace Consults

variable {p : Heap → Except ε α} {x : Act ε α}

theorem pure (a : α) : (Pure.pure a : Act ε α).Consults e fun _ => .ok a := rfl

theorem bind {q : α → Heap → Except ε β} {f : α → Act ε β} (hx : x.Consults e p)
    (hf : ∀ a, (f a).Consults e (q a)) :
    (x >>= f).Consults e fun h => p h >>= fun a => q a h := by
  obtain rfl : x = readHeap e p >>= ofExcept := hx
  funext w
  simp only [bind_apply, readHeap, read]
  cases p (w.heap e) with
  | ok a => exact congrFun (hf a) w
  | error cause => rfl

theorem map_error (f : ε → ε') (hx : x.Consults e p) :
    (x.mapError f).Consults e fun h => (p h).mapError f := by
  obtain rfl : x = readHeap e p >>= ofExcept := hx
  funext w
  simp only [map_error_apply, bind_apply, readHeap, read]
  cases p (w.heap e) <;> rfl

/-- What follows is done in the world that was looked at. -/
theorem bound (hx : x.Consults e p) {w : World} {Q : β → Prop} {f f' : α → Act ε β}
    (hf : ∀ a, p (w.heap e) = .ok a → (R.bound (.code e)).Holds w Q (f a) (f' a)) :
    (R.bound (.code e)).Holds w Q (x >>= f) (x >>= f') := by
  obtain rfl : x = readHeap e p >>= ofExcept := hx
  rw [bind_assoc, bind_assoc]
  refine Regime.look_heap ?_
  cases hp : p (w.heap e) with
  | ok a => exact hf a hp
  | error cause => exact (R.bound _).raise cause

theorem within (hx : x.Consults e p) : R.Within e x := by
  obtain rfl : x = readHeap e p >>= ofExcept := hx
  exact .bind (within_read_heap p) fun _ _ => .of_except fun _ _ => trivial

end Consults

end Act

namespace Conversion

variable {α : Type} {convert : Heap → Value → Except HostError α} {args : List Value} {n : Nat}

theorem consults_argument : (argument convert e args n).Consults e fun h =>
    (convert h (Value.arg args (n - 1))).mapError (.badArgument none (.position n)) := rfl

theorem within_argument : R.Within e (argument convert e args n) := consults_argument.within

theorem within_optional : R.Within e (optional convert e args n) := within_argument

end Conversion

namespace Classes

theorem within_newTable {ε : Type} : R.Within e (newTable e : Act ε TableId) := by
  unfold newTable
  refine .bind (within_read_heap _) fun t _ => ?_
  exact .bind (within_update_heap _ fun h => .add_table h _) fun _ _ => .pure trivial

theorem within_setRaw {ε : Type} (t : TableId) (key : String) (v : Value) :
    R.Within e (setRaw e t key v : Act ε Unit) := within_update_heap _ fun h => .raw_set h ..

theorem within_create {ε : Type} : R.Within e (create e : Act ε TableId) := by
  unfold create
  refine .bind within_newTable fun cls _ => ?_
  refine .bind within_newTable fun classMeta _ => ?_
  refine .bind within_newTable fun instanceMeta _ => ?_
  refine .bind (within_setRaw ..) fun _ _ => ?_
  refine .bind (within_setRaw ..) fun _ _ => ?_
  refine .bind (within_read_heap _) fun f _ => ?_
  refine .bind (within_update_heap _ fun h => .add_function h _ fun c heq => ?_) fun _ _ => ?_
  · cases heq
  · refine .bind (within_setRaw ..) fun _ _ => ?_
    exact .bind (within_update_heap _ fun h => .of_table h cls _) fun _ _ => .pure trivial

/-! An instance of a class is made first and initialized then. -/

section Constructing

variable (run : Evaluator) (s : Spot) (args : List Value)

def allocate : Act HostError (TableId × Value) := do
  let cls ← Conversion.argument Conversion.toTable s.env args 1
  match ← Act.readHeap s.env fun h => (h.table cls).metatable with
  | none => Act.raise (.runtime "createClass: class table lost its metatable")
  | some classMeta => do
    let v ← Boundary.getField run s.env (s.site none) (.table classMeta) "__instance"
    let h ← Act.readHeap s.env fun h => h
    let instanceMeta ← Act.ofExcept (Conversion.toTable h v)
    let object ← newTable s.env
    Act.updateHeap s.env (·.setMetatable object (some instanceMeta))
    let init ← Boundary.getField run s.env (s.site none) (.table object) "__init__"
    return (object, init)

def finish : TableId × Value → Act HostError TableId
  | (object, .function f) => do
    discard (Boundary.call run s.env (s.site none) (.function f) [.table object])
    return object
  | (object, _) => return object

theorem construct_eq : construct run s args = allocate run s args >>= finish run s := by
  unfold construct allocate
  simp only [bind_assoc]
  refine bind_congr fun cls => bind_congr fun found => ?_
  cases found with
  | none => rfl
  | some classMeta =>
    simp only [bind_assoc, pure_bind]
    refine bind_congr fun v => bind_congr fun h => bind_congr fun instanceMeta => ?_
    refine bind_congr fun object => bind_congr fun _ => bind_congr fun init => ?_
    cases init <;> rfl

theorem finish_function (object : TableId) (f : FunctionId) :
    finish run s (object, .function f) = do
      let _ ← Boundary.call run s.env (s.site none) (.function f) [.table object]
      return object := by
  dsimp only [finish]
  rw [Act.discard_eq, bind_assoc]
  rfl

variable {run} {run' : Evaluator}

theorem within_allocate (h : R.Lawful run run') :
    R.Beside s.env (allocate run s args) (allocate run' s args) := by
  unfold allocate
  refine .bind Conversion.within_argument fun cls _ => ?_
  refine .bind (within_read_heap _) fun found _ => ?_
  split
  · exact .raise _
  · refine .bind (Boundary.within_getField h ..) fun v _ => ?_
    refine .bind (within_read_heap _) fun x _ => ?_
    refine .bind (.of_except fun _ _ => trivial) fun instanceMeta _ => ?_
    refine .bind within_newTable fun object _ => ?_
    refine .bind (within_update_heap _ fun h => .of_table h object _) fun _ _ => ?_
    exact .bind (Boundary.within_getField h ..) fun init _ => .pure trivial

theorem within_finish (h : R.Lawful run run') (made : TableId × Value) :
    R.Beside s.env (finish run s made) (finish run' s made) := by
  obtain ⟨object, init⟩ := made
  cases init with
  | function f => exact .bind (Boundary.within_call h ..).discard fun _ _ => .pure trivial
  | _ => exact .pure trivial

theorem within_construct (h : R.Lawful run run') :
    R.Beside s.env (construct run s args) (construct run' s args) := by
  rw [construct_eq, construct_eq]
  exact .bind (within_allocate s args h) fun made _ => within_finish s h made

end Constructing

end Classes

end ScenarioHost
