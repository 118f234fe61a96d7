import ScenarioHost.Proofs.Bindings
import ScenarioHost.Proofs.Hosting

/-!
Methods of handles. A handle leads to its environment as long as that is there. What setting a
variable of it does is a change of one global, unless its globals have a handler for new ones.
-/
namespace ScenarioHost

open Lua (Evaluator Heap Site Spot TableId Value)

theorem Lua.Value.isNil_iff (v : Value) : v.isNil = true ↔ v = .nil := by cases v <;> simp [isNil]

/-! Globals of environments. -/

namespace Interior

def Rooted (i : Interior) : Prop := i.globals.index < i.heap.tables.size

def initial : Interior := Environments.initial.interior

end Interior

theorem Lua.Library.size_bindAll (h : Heap) (t : TableId) (functions : List (String × Builtin)) :
    (bindAll h t functions).tables.size = h.tables.size := by
  induction functions generalizing h with
  | nil => rfl
  | cons f functions ih => exact (ih (bindBuiltin t h f)).trans (size_bindBuiltin h t f)

theorem Environments.rooted_initial : Interior.initial.Rooted := by
  have hsize : initial.heap.tables.size =
      (Lua.Library.withHostMetatables Lua.Library.standardHeap.1).tables.size :=
    Lua.Library.size_bindAll _ _ _
  exact Nat.lt_of_lt_of_eq initial_globals hsize.symm

namespace World

def Rooted (w : World) : Prop := ∀ e, w.Allocated e → (w.interior e).Rooted

theorem Rooted.modify {w : World} (h : w.Rooted) (e : EnvironmentId) {f : Environment → Environment}
    (hf : (w.environment e).interior.Rooted → (f (w.environment e)).interior.Rooted) :
    (w.modifyEnvironment e f).Rooted := by
  intro x hx
  rw [Allocated, size_modifyEnvironment] at hx
  rw [interior, environment_modifyEnvironment]
  split
  · rename_i he
    obtain ⟨rfl, hx⟩ := he
    exact hf (h x hx)
  · exact h x hx

theorem Rooted.of_same {w w' : World} (h : w.Rooted) (henv : w'.environments = w.environments) :
    w'.Rooted := by
  intro e he
  have hinterior : w'.interior e = w.interior e := by
    rw [interior, environment, henv]
    rfl
  rw [hinterior]
  exact h e (by rwa [Allocated, henv] at he)

theorem rooted_clearScripts {w : World} (h : w.Rooted) : w.clearScripts.Rooted :=
  kept_by_clearScripts (T := fun w w' => w.Rooted → w'.Rooted) (fun _ h => h)
    (fun first second h => second (first h)) (fun e _ hw => hw.modify e fun he => he)
    (fun _ _ h => h) w h

/-- Nothing takes an environment its globals. -/
theorem enduring_rooted : Enduring fun w w' => w.Rooted → w'.Rooted where
  refl _ hw := hw
  trans first second hw := second (first hw)
  deed {a w f _} hf hw := by
    cases hf with
    | clearScripts w => exact rooted_clearScripts hw
    | letGo w x =>
      exact kept_by_letGo (T := fun w w' => w.Rooted → w'.Rooted) (fun _ h => h)
        (fun e _ h => h.modify e fun he => he) w x hw
    | _ => exact hw.of_same rfl
  part {a w f} hf hw := by
    cases hf with
    | _ => exact hw.of_same rfl
  change {e w f} hf hw := by
    cases hf with
    | heap f hgrows => exact hw.modify e fun he => Nat.lt_of_lt_of_le he hgrows.tables
    | entityTable t => exact hw.modify e fun he => he
  draw w hw := by
    have hseed (seed : UInt64) : Rooted { w with seed := seed } := hw.of_same rfl
    exact hseed _
  session _ _ hw := hw.of_same rfl
  enter e _ hw := hw.modify e fun he => he
  leave e _ hw := hw.modify e fun he => he
  hold e _ hw := hw.modify e fun he => he
  unhold e _ hw := hw.modify e fun he => he
  extended w hw e he := by
    rw [interior, environment_extended]
    split
    · exact Environments.rooted_initial
    · -- the others are where they were
      rename_i hne
      have hsize : e.index < w.environments.size + 1 := by
        rwa [Allocated, extended, Array.size_push] at he
      have hother : e.index ≠ w.environments.size := fun heq => hne (congrArg EnvironmentId.mk heq)
      exact hw e (Nat.lt_of_le_of_ne (Nat.le_of_lt_succ hsize) hother)
  adopted e script w hw := Rooted.modify (w := w.modifySession _) hw e fun he => he
  destroy e _ hw := hw.modify e fun he => he
  controlled e functions w hw := hw.modify e fun he => by
    -- functions of the host's own become globals: no table comes or goes
    have hsize := Lua.Library.size_bindAll (w.environment e).heap (w.environment e).globals
      (Lua.Library.named .control functions)
    exact Nat.lt_of_lt_of_eq he hsize.symm
  lending _ _ hw := hw.of_same rfl
  adding _ _ hw := hw.of_same rfl
  endSession w hw := (rooted_clearScripts hw).of_same rfl
  equipped _ _ hw := hw.of_same rfl

def global (w : World) (e : EnvironmentId) (key : Value) : Value :=
  (w.heap e).rawGet (w.environment e).globals key

def assigned (w : World) (e : EnvironmentId) (name value : String) : World :=
  w.modifyHeap e fun h =>
    h.rawSet (w.environment e).globals (Conversion.ofText name) (Conversion.ofText value)

/-- One global of an environment is now a text; nothing else is different. -/
structure SetsGlobal (w w' : World) (e : EnvironmentId) (name value : String) : Prop where
  value : w'.global e (Conversion.ofText name) = Conversion.ofText value
  others (key : Value) : key ≠ Conversion.ofText name → w'.global e key = w.global e key
  tables (t : TableId) : t ≠ (w.environment e).globals → (w'.heap e).table t = (w.heap e).table t
  metatable : ((w'.heap e).table (w.environment e).globals).metatable =
    ((w.heap e).table (w.environment e).globals).metatable
  heap : { w'.heap e with tables := (w.heap e).tables } = w.heap e
  shell : { w'.environment e with heap := w.heap e } = w.environment e
  elsewhere (x : EnvironmentId) : x ≠ e → w'.environment x = w.environment x
  outside : { w' with environments := w.environments } = w

theorem sets_global_assigned {w : World} {e : EnvironmentId} (he : w.Allocated e) (hw : w.Rooted)
    (name value : String) : w.SetsGlobal (w.assigned e name value) e name value := by
  have henvironment : (w.assigned e name value).environment e = { w.environment e with
      heap := (w.heap e).rawSet (w.environment e).globals (Conversion.ofText name)
        (Conversion.ofText value) } := Recounts.environment_self w e he
  have hheap : (w.assigned e name value).heap e = (w.heap e).rawSet (w.environment e).globals
      (Conversion.ofText name) (Conversion.ofText value) := congrArg Environment.heap henvironment
  have hglobals : ((w.assigned e name value).environment e).globals = (w.environment e).globals :=
    w.part_modifyEnvironment e e (·.globals) _ fun _ => rfl
  have hsize : (w.environment e).globals.index < (w.heap e).tables.size := hw e he
  constructor
  · rw [global, hheap, hglobals]
    exact (w.heap e).rawGet_rawSet_self _ _ _ hsize
  · intro key hkey
    rw [global, hheap, hglobals]
    exact (w.heap e).rawGet_rawSet_other _ _ _ hkey
  · intro t ht
    rw [hheap]
    exact (w.heap e).table_rawSet_other _ _ ht _
  · rw [hheap, Heap.table_rawSet, if_pos hsize]
    exact Lua.Table.metatable_set_string ..
  · rw [hheap]
    rfl
  · rw [henvironment]
    rfl
  · exact fun x hx => Recounts.environment_of_ne w hx
  · rfl

theorem modifyEnvironment_twice (w : World) (e : EnvironmentId) (f g : Environment → Environment) :
    (w.modifyEnvironment e f).modifyEnvironment e g = w.modifyEnvironment e fun x => g (f x) := by
  have hmodify : (w.environments.modify e.index f).modify e.index g =
      w.environments.modify e.index fun x => g (f x) := by
    refine Array.ext_getElem? fun j => ?_
    simp only [Array.getElem?_modify]
    split
    · cases w.environments[j]? <;> rfl
    · rfl
  unfold modifyEnvironment
  rw [hmodify]

/-- Nothing is left of a visit to an environment but what was done there. -/
theorem assigned_visited (w : World) (e : EnvironmentId) (name value : String) :
    ((w.hold e).assigned e name value).unhold e = w.assigned e name value := by
  have hglobals : ((w.hold e).environment e).globals = (w.environment e).globals :=
    w.part_modifyEnvironment e e (·.globals) _ fun _ => rfl
  -- three changes of one environment are one, in which the visit cancels out
  rw [assigned, hglobals, modifyHeap, hold, modifyEnvironment_twice, unhold, modifyEnvironment_twice]
  rfl

end World

/-! What the methods do. -/

section Methods

variable {run : Evaluator} {e : EnvironmentId} {site : Site} {w : World} {name value : String}

/-- A field is set in the table itself where nothing is asked to take it. -/
theorem Lua.set_index_own {s : Spot} {t : TableId} {key v : Value} (limit : Nat)
    (naming : Option Naming) (hplain : (w.heap s.env).handler (.table t) "__newindex" = .nil) :
    setIndex run s (limit + 1) naming (.table t) key v w = setField s t key v w := by
  have hhandler : (if ((w.heap s.env).rawGet t key).isNil then
      (w.heap s.env).handler (.table t) "__newindex" else .nil) = .nil := by
    rw [hplain, ite_self]
  rw [setIndex, Act.bind_apply]
  simp only [Act.readHeap, Act.read, hhandler]

theorem Lua.set_index_plain {s : Spot} {t : TableId} {k : ByteString} {v : Value} (limit : Nat)
    (naming : Option Naming) (hplain : (w.heap s.env).handler (.table t) "__newindex" = .nil) :
    setIndex run s (limit + 1) naming (.table t) (.string k) v w =
      .done () (w.modifyHeap s.env (·.rawSet t (.string k) v)) :=
  set_index_own limit naming hplain

theorem Boundary.from_host_done {α : Type} {x : Act Value α} {a : α} {w' : World}
    (hx : x w = .done a w') : fromHost run e site x w = .done a w' := by
  unfold fromHost
  rw [Act.bind_apply, Act.attempt_apply, hx]
  rfl

theorem Boundary.set_global_plain
    (hplain : (w.heap e).handler (.table (w.environment e).globals) "__newindex" = .nil) :
    setGlobal run e site name (Conversion.ofText value) w = .done () (w.assigned e name value) := by
  have hset : Lua.setIndex run ⟨e, site, none⟩ Lua.chainLimit none
      (.table (w.environment e).globals) (Conversion.ofText name) (Conversion.ofText value) w =
        .done () (w.assigned e name value) :=
    Lua.set_index_plain (s := ⟨e, site, none⟩) 99 none hplain
  exact from_host_done hset

theorem Boundary.in_script_done {α : Type} {x : Act HostError α} {a : α} {w' : World}
    (hx : x w = .done a w') : inScript e x w = .done a w' := by
  unfold inScript
  rw [Act.bind_apply, Act.attempt_apply, hx]
  rfl

namespace Scripts

variable {α : Type} {s : Spot} {args : List Value} {x : Act HostError α}

theorem reaching_absent (h : ¬ w.isPresent e) :
    reaching e x w = .raised (.script .invalidHandle) w := by
  unfold reaching
  rw [Act.bind_apply, Act.read]
  dsimp only
  rw [if_neg h]
  rfl

theorem reaching_present (h : w.isPresent e) :
    reaching e x w = Act.between (·.hold e) (·.unhold e) x w := by
  unfold reaching
  rw [Act.bind_apply, Act.read]
  dsimp only
  rw [if_pos h]

theorem setVariable_apply (hargs : variableArguments args (w.heap s.env) = .ok (e, name, value)) :
    setVariable run s args w = assigning run s e name value w := by
  rw [setVariable_eq, Act.bind_apply, Act.bind_apply, Act.readHeap, Act.read, hargs]
  rfl

theorem runModule_apply (hargs : runArguments args (w.heap s.env) = .ok (e, name)) :
    runModule run s args w = visiting run s e name w := by
  rw [runModule_eq, Act.bind_apply, Act.bind_apply, Act.readHeap, Act.read, hargs]
  rfl

/-- A variable of a sub-script that is there is set at once. -/
theorem assigning_plain (hpresent : w.isPresent e)
    (hplain : (w.heap e).handler (.table (w.environment e).globals) "__newindex" = .nil) :
    assigning run s e name value w = .done () (w.assigned e name value) := by
  have hglobals : ((w.hold e).environment e).globals = (w.environment e).globals :=
    w.part_modifyEnvironment e e (·.globals) _ fun _ => rfl
  have hheap : (w.hold e).heap e = w.heap e :=
    w.part_modifyEnvironment e e (·.heap) _ fun _ => rfl
  have hset : Boundary.setGlobal run e (siteInside s) name (Conversion.ofText value) (w.hold e) =
      .done () ((w.hold e).assigned e name value) :=
    Boundary.set_global_plain (by rw [hheap, hglobals, hplain])
  unfold assigning
  rw [reaching_present hpresent, Act.between, hset, ← w.assigned_visited]

end Scripts

theorem Engine.call_method {limit fuel : Nat} {f : Value} {args : List Value}
    {method : HandleFunction} (hf : (w.heap e).builtin? f = some (.handle method))
    (hdepth : ¬ depthLimit < site.depth) :
    engine limit (fuel + 1) .values (.call e site f args) w =
      Boundary.inScript e (Interface.callHandle (engine limit fuel) ⟨e, site, none⟩ method args) w :=
  Call.run_builtin hdepth hf

/-- A script that sets a variable of a sub-script by a handle. -/
theorem Engine.assigns_global {limit fuel : Nat} {f : Value} {args : List Value}
    {b : EnvironmentId} (hf : (w.heap e).builtin? f = some (.handle .setVariable))
    (hdepth : ¬ depthLimit < site.depth)
    (hargs : Scripts.variableArguments args (w.heap e) = .ok (b, name, value))
    (hpresent : w.isPresent b)
    (hplain : (w.heap b).handler (.table (w.environment b).globals) "__newindex" = .nil) :
    engine limit (fuel + 1) .values (.call e site f args) w = .done [] (w.assigned b name value) := by
  have hset : Scripts.setVariable (engine limit fuel) ⟨e, site, none⟩ args w =
      .done () (w.assigned b name value) :=
    (Scripts.setVariable_apply (s := ⟨e, site, none⟩) hargs).trans
      (Scripts.assigning_plain hpresent hplain)
  rw [Engine.call_method hf hdepth]
  apply Boundary.in_script_done
  rw [Interface.callHandle, Act.bind_apply, hset]
  rfl

end Methods

end ScenarioHost
