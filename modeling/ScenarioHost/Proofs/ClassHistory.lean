import ScenarioHost.Proofs.Classes

/-!
The history of classes. Scripts make classes, write fields of classes and instances, and call
classes, which makes instances and runs code that does any of this in turn. What every field of a
class or an instance has to be after such a history is told from the list of what happened, and
reading it gives that.
-/
namespace ScenarioHost.Classes

open Lua (Evaluator Heap Naming Site Spot TableId Value)

/-- Something that happens to classes and instances. -/
inductive Event where
  | created (c : TableId)
  /-- An instance of a class was made, and is about to be initialized. -/
  | built (c o : TableId)
  | wrote (t : TableId) (key value : Value)

namespace Event

def tables : Event → List TableId
  | .created c => [c, metaOf c, instanceMetaOf c]
  | .built _ o => [o]
  | .wrote .. => []

def after (t : TableId) (key former : Value) : Event → Value
  | .wrote t' key' value => if t' = t ∧ key'.same key then value else former
  | _ => former

end Event

def tablesOf (l : List Event) : List TableId := l.flatMap Event.tables

def Member (l : List Event) (t : TableId) : Prop := .created t ∈ l ∨ ∃ c, .built c t ∈ l

def lastWritten (l : List Event) (t : TableId) (key : Value) : Value :=
  l.foldl (fun former e => e.after t key former) .nil

def seen (l : List Event) (c o : TableId) (key : Value) : Value :=
  resolve (lastWritten l o key) (lastWritten l c key)

structure Elsewhere (env : EnvironmentId) (l : List Event) (w w' : World) : Prop where
  allocated : w'.Allocated env
  size : (w.heap env).tables.size ≤ (w'.heap env).tables.size
  construct : ∀ f, (w.heap env).function? f = some (.builtin .construct) →
    (w'.heap env).function? f = some (.builtin .construct)
  kept : ∀ t ∈ tablesOf l, (w'.heap env).table t = (w.heap env).table t

/-- What scripts of an environment that leave metatables alone can do from a world on, in any order
and any number. That an instance is made begins the call of its class; what its `__init__` does
comes next. -/
inductive Story (env : EnvironmentId) (w₀ : World) : List Event → World → Prop where
  | begun (h : w₀.Allocated env) : Story env w₀ [] w₀
  | created {l : List Event} {w w' : World} {c : TableId} : Story env w₀ l w →
      create env w = (.done c w' : Outcome HostError TableId) → Story env w₀ (l ++ [.created c]) w'
  | built {l : List Event} {w w' : World} {c o : TableId} {run : Evaluator} {s : Spot}
      {args : List Value} {init : Value} : Story env w₀ l w → .created c ∈ l → s.env = env →
      allocate run s (.table c :: args) w = .done (o, init) w' →
      Story env w₀ (l ++ [.built c o]) w'
  | wrote {l : List Event} {w w' : World} {t : TableId} {run : Evaluator} {s : Spot}
      {naming : Option Naming} {key value : Value} : Story env w₀ l w → Member l t → s.env = env →
      Lua.setIndex run s Lua.chainLimit naming (.table t) key value w = .done () w' →
      Story env w₀ (l ++ [.wrote t key value]) w'
  /-- `rawset` and the functions of `table` write past metatables. -/
  | raw {l : List Event} {w : World} {t : TableId} (key value : Value) : Story env w₀ l w →
      Member l t →
      Story env w₀ (l ++ [.wrote t key value]) (w.modifyHeap env (·.rawSet t key value))
  | elsewhere {l : List Event} {w w' : World} : Story env w₀ l w → Elsewhere env l w w' →
      Story env w₀ l w'

section Lists

variable {l : List Event} {e : Event} {c c' o t : TableId} {key : Value}

theorem tablesOf_append : tablesOf (l ++ [e]) = tablesOf l ++ e.tables := by
  rw [tablesOf, List.flatMap_append, List.flatMap_singleton, tablesOf]

theorem lastWritten_append :
    lastWritten (l ++ [e]) t key = e.after t key (lastWritten l t key) := by
  rw [lastWritten, List.foldl_append, lastWritten]
  rfl

theorem mem_tablesOf (he : e ∈ l) (ht : t ∈ e.tables) : t ∈ tablesOf l :=
  List.mem_flatMap.mpr ⟨e, he, ht⟩

theorem Member.mem_tablesOf (ht : Member l t) : t ∈ tablesOf l := by
  rcases ht with ht | ⟨c, ht⟩
  · exact Classes.mem_tablesOf ht (List.mem_cons_self ..)
  · exact Classes.mem_tablesOf ht (List.mem_cons_self ..)

/-- A table was made once, for one thing. -/
theorem event_of_table (hd : (tablesOf l).Nodup) {e' : Event} (he : e ∈ l) (he' : e' ∈ l)
    (ht : t ∈ e.tables) (ht' : t ∈ e'.tables) : e = e' := by
  induction l with
  | nil => cases he
  | cons first l ih =>
    rw [tablesOf, List.flatMap_cons, List.nodup_append'] at hd
    obtain ⟨-, hrest, hapart⟩ := hd
    rcases List.mem_cons.mp he with rfl | hlater
    · rcases List.mem_cons.mp he' with rfl | hlater'
      · rfl
      · exact (hapart ht (mem_tablesOf hlater' ht')).elim
    · rcases List.mem_cons.mp he' with rfl | hlater'
      · exact (hapart ht' (mem_tablesOf hlater ht)).elim
      · exact ih hrest hlater hlater'

/-- Classes and instances are no metatables. -/
theorem Member.ne_meta (hd : (tablesOf l).Nodup) (ht : Member l t) (hc : .created c ∈ l) :
    t ≠ metaOf c ∧ t ≠ instanceMetaOf c := by
  have hmeta : metaOf c ∈ (Event.created c).tables := by simp [Event.tables]
  have hinstances : instanceMetaOf c ∈ (Event.created c).tables := by simp [Event.tables]
  rcases ht with ht | ⟨c', ht⟩
  · have hself : t ∈ (Event.created t).tables := List.mem_cons_self ..
    constructor
    · intro heq
      cases event_of_table hd hc ht hmeta (heq ▸ hself)
      exact ne_metaOf c heq
    · intro heq
      cases event_of_table hd hc ht hinstances (heq ▸ hself)
      exact ne_instanceMetaOf c heq
  · have hself : t ∈ (Event.built c' t).tables := List.mem_cons_self ..
    constructor
    · intro heq
      cases event_of_table hd hc ht hmeta (heq ▸ hself)
    · intro heq
      cases event_of_table hd hc ht hinstances (heq ▸ hself)

/-- No instance is a class. -/
theorem built_ne_created (hd : (tablesOf l).Nodup) (ho : .built c o ∈ l) (hc : .created c' ∈ l) :
    o ≠ c' := by
  rintro rfl
  cases event_of_table hd ho hc (List.mem_cons_self ..) (List.mem_cons_self ..)

theorem member_append : Member (l ++ [e]) t ↔ Member l t ∨ Member [e] t := by
  unfold Member
  simp only [List.mem_append, exists_or]
  tauto

end Lists

structure Tidy (env : EnvironmentId) (l : List Event) (w : World) : Prop where
  allocated : w.Allocated env
  there : ∀ t ∈ tablesOf l, t.index < (w.heap env).tables.size
  distinct : (tablesOf l).Nodup
  classes : ∀ c, .created c ∈ l → IsClass (w.heap env) c
  instances : ∀ c o, .built c o ∈ l → .created c ∈ l ∧ IsInstance (w.heap env) c o
  /-- Only fields of tables that were made by then are written. -/
  written : ∀ t key value, .wrote t key value ∈ l → Member l t
  fields : ∀ t, Member l t → ∀ key, (w.heap env).rawGet t key = lastWritten l t key

namespace Tidy

variable {env : EnvironmentId} {l : List Event} {w w' : World}

theorem begun (h : w.Allocated env) : Tidy env [] w where
  allocated := h
  there := nofun
  distinct := List.nodup_nil
  classes := nofun
  instances := nofun
  written := nofun
  fields := by
    rintro t (ht | ⟨c, ht⟩)
    · cases ht
    · cases ht

/-- Nothing was written to a table before it was made. -/
theorem lastWritten_new (h : Tidy env l w) {t : TableId} (ht : t ∉ tablesOf l) (key : Value) :
    lastWritten l t key = .nil := by
  have hother (e : Event) (he : e ∈ l) (former : Value) : e.after t key former = former := by
    cases e with
    | wrote t' key' value =>
      have hne : t' ≠ t := by
        rintro rfl
        exact ht (h.written t' key' value he).mem_tablesOf
      exact if_neg fun hboth => hne hboth.1
    | _ => rfl
  -- the list itself is taken apart from here on: that the story is tidy is not inherited
  clear h ht
  unfold lastWritten
  induction l with
  | nil => rfl
  | cons e l ih =>
    rw [List.foldl_cons, hother e List.mem_cons_self]
    exact ih fun e he => hother e (List.mem_cons_of_mem _ he)

section Elsewhere

variable (h : Tidy env l w) (he : Elsewhere env l w w')

include h he

theorem class_kept {c : TableId} (hc : .created c ∈ l) : IsClass (w'.heap env) c := by
  have htable (t : TableId) (ht : t ∈ (Event.created c).tables) :
      (w'.heap env).table t = (w.heap env).table t := he.kept t (mem_tablesOf hc ht)
  refine (h.classes c hc).kept he.size he.construct ?_ (fun key => ?_) fun key => ?_
  · rw [htable c (by simp [Event.tables])]
  · rw [Heap.rawGet, htable _ (by simp [Event.tables]), Heap.rawGet]
  · rw [Heap.rawGet, htable _ (by simp [Event.tables]), Heap.rawGet]

theorem instance_kept {c o : TableId} (ho : .built c o ∈ l) : IsInstance (w'.heap env) c o := by
  obtain ⟨-, hsize, hmetatable⟩ := h.instances c o ho
  constructor
  · exact Nat.lt_of_lt_of_le hsize he.size
  · rw [he.kept o (mem_tablesOf ho (List.mem_cons_self ..)), hmetatable]

theorem fields_kept {t : TableId} (ht : Member l t) (key : Value) :
    (w'.heap env).rawGet t key = lastWritten l t key := by
  rw [Heap.rawGet, he.kept t ht.mem_tablesOf]
  exact h.fields t ht key

theorem elsewhere : Tidy env l w' where
  allocated := he.allocated
  there t ht := Nat.lt_of_lt_of_le (h.there t ht) he.size
  distinct := h.distinct
  classes _ hc := h.class_kept he hc
  instances c o ho := ⟨(h.instances c o ho).1, h.instance_kept he ho⟩
  written := h.written
  fields _ ht key := h.fields_kept he ht key

/-- Tables are made that were not there: all fields of a new one are nil. -/
theorem making {e : Event} (hmade : ∀ t key value, e ≠ .wrote t key value)
    (hnew : ∀ t ∈ e.tables, (w.heap env).tables.size ≤ t.index ∧
      t.index < (w'.heap env).tables.size) (hdistinct : e.tables.Nodup)
    (hclass : ∀ c, e = .created c → IsClass (w'.heap env) c)
    (hinstance : ∀ c o, e = .built c o → .created c ∈ l ∧ IsInstance (w'.heap env) c o)
    (hempty : ∀ t, Member [e] t → ∀ key, (w'.heap env).rawGet t key = .nil) :
    Tidy env (l ++ [e]) w' := by
  have hafter (t : TableId) (key former : Value) : e.after t key former = former := by
    cases e with
    | wrote t' key' value => exact absurd rfl (hmade t' key' value)
    | _ => rfl
  -- the tables of the list were there before the new ones were
  have hapart (t : TableId) (ht : t ∈ e.tables) : t ∉ tablesOf l := by
    intro hold
    exact Nat.lt_irrefl _ (Nat.lt_of_lt_of_le (h.there t hold) (hnew t ht).1)
  constructor
  case allocated => exact he.allocated
  case there =>
    intro t ht
    rcases List.mem_append.mp (tablesOf_append ▸ ht) with ht | ht
    · exact Nat.lt_of_lt_of_le (h.there t ht) he.size
    · exact (hnew t ht).2
  case distinct =>
    rw [tablesOf_append]
    exact h.distinct.append hdistinct fun t hold ht => hapart t ht hold
  case classes =>
    intro c hc
    rcases List.mem_append.mp hc with hc | hc
    · exact h.class_kept he hc
    · exact hclass c (List.mem_singleton.mp hc).symm
  case instances =>
    intro c o ho
    rcases List.mem_append.mp ho with ho | ho
    · exact ⟨List.mem_append_left _ (h.instances c o ho).1, h.instance_kept he ho⟩
    · obtain ⟨hc, hinst⟩ := hinstance c o (List.mem_singleton.mp ho).symm
      exact ⟨List.mem_append_left _ hc, hinst⟩
  case written =>
    intro t key value hw
    rcases List.mem_append.mp hw with hw | hw
    · exact member_append.mpr (.inl (h.written t key value hw))
    · exact absurd (List.mem_singleton.mp hw).symm (hmade t key value)
  case fields =>
    intro t ht key
    rw [lastWritten_append, hafter]
    rcases member_append.mp ht with ht | ht
    · exact h.fields_kept he ht key
    · have hself : t ∈ e.tables := by
        have hall := ht.mem_tablesOf
        rwa [tablesOf, List.flatMap_singleton] at hall
      rw [hempty t ht key, h.lastWritten_new (hapart t hself)]

end Elsewhere

theorem created (h : Tidy env l w) :
    Tidy env (l ++ [.created (w.heap env).nextTable]) (madeClass env w) := by
  have hheap : (madeClass env w).heap env =
      withClass (w.heap env).nextTable (w.heap env).nextFunction (w.heap env) :=
    World.heap_modifyHeap _ _ h.allocated _
  have hsize : ((madeClass env w).heap env).tables.size = (w.heap env).tables.size + 3 := by
    rw [hheap, size_withClass]
  have hnext : (w.heap env).nextTable.index = (w.heap env).tables.size := rfl
  have hmeta : (metaOf (w.heap env).nextTable).index = (w.heap env).tables.size + 1 := rfl
  have hinstances : (instanceMetaOf (w.heap env).nextTable).index = (w.heap env).tables.size + 2 :=
    rfl
  -- the new tables come after all that were there, which stay what they were
  have helsewhere : Elsewhere env l w (madeClass env w) := by
    constructor
    · exact h.allocated.modifyHeap _
    · omega
    · intro f hf
      rw [hheap]
      exact function_withClass _ hf _ _
    · intro t ht
      have hold := h.there t ht
      rw [hheap]
      refine table_withClass _ _ ?_ ?_ ?_
      all_goals
        rintro rfl
        omega
  refine h.making helsewhere nofun ?_ ?_ ?_ nofun ?_
  · intro t ht
    simp only [Event.tables, List.mem_cons, List.not_mem_nil, or_false] at ht
    rcases ht with rfl | rfl | rfl
    all_goals omega
  · have hapart := metaOf_ne_instanceMetaOf (w.heap env).nextTable
    simp [Event.tables, ne_metaOf, ne_instanceMetaOf, hapart]
  · intro c hc
    cases hc
    rw [hheap]
    exact is_class_withClass _
  · rintro t (ht | ⟨c, ht⟩) key
    · cases List.mem_singleton.mp ht
      rw [hheap]
      exact rawGet_new _ _ key
    · cases List.mem_singleton.mp ht

theorem built (h : Tidy env l w) {c : TableId} (hc : .created c ∈ l) :
    Tidy env (l ++ [.built c (w.heap env).nextTable]) (bornInstance env c w) := by
  have hheap := heap_bornInstance h.allocated c
  have hsize : ((bornInstance env c w).heap env).tables.size = (w.heap env).tables.size + 1 := by
    rw [hheap, size_withInstance]
  have hnext : (w.heap env).nextTable.index = (w.heap env).tables.size := rfl
  -- one table more, and nothing else
  have helsewhere : Elsewhere env l w (bornInstance env c w) := by
    constructor
    · exact h.allocated.modifyHeap _
    · omega
    · intro f hf
      rw [hheap]
      exact hf
    · intro t ht
      have hold := h.there t ht
      rw [hheap]
      refine table_withInstance _ _ ?_
      rintro rfl
      omega
  refine h.making helsewhere nofun ?_ (List.nodup_singleton _) nofun ?_ ?_
  · intro t ht
    cases List.mem_singleton.mp ht
    omega
  · intro c' o ho
    cases ho
    refine ⟨hc, ?_⟩
    rw [hheap]
    exact is_instance_withInstance ..
  · rintro t (ht | ⟨c', ht⟩) key
    · cases List.mem_singleton.mp ht
    · cases List.mem_singleton.mp ht
      rw [hheap, rawGet_withInstance, rawGet_next]

/-- A write changes the one field that it is about. -/
theorem wrote (h : Tidy env l w) {t : TableId} (ht : Member l t) (key value : Value) :
    Tidy env (l ++ [.wrote t key value]) (w.modifyHeap env (·.rawSet t key value)) := by
  have hheap : (w.modifyHeap env (·.rawSet t key value)).heap env =
      (w.heap env).rawSet t key value := World.heap_modifyHeap _ _ h.allocated _
  have htables : tablesOf (l ++ [.wrote t key value]) = tablesOf l := by
    rw [tablesOf_append]
    exact List.append_nil _
  have hmember (x : TableId) : Member (l ++ [.wrote t key value]) x → Member l x := by
    intro hx
    rcases member_append.mp hx with hx | hx | ⟨c, hx⟩
    · exact hx
    · cases List.mem_singleton.mp hx
    · cases List.mem_singleton.mp hx
  have hthere := h.there t ht.mem_tablesOf
  -- the metatables of classes are other tables than the one that is written to
  have hmeta {x : TableId} (hx : x ≠ t) (key' : Value) :
      ((w.heap env).rawSet t key value).rawGet x key' = (w.heap env).rawGet x key' := by
    rw [Heap.rawGet_rawSet _ _ _ hthere, if_neg fun hboth => hx hboth.1]
  constructor
  case allocated => exact h.allocated.modifyHeap _
  case there =>
    intro x hx
    rw [hheap, Heap.size_rawSet]
    exact h.there x (htables ▸ hx)
  case distinct => rw [htables]; exact h.distinct
  case classes =>
    intro c hc
    rcases List.mem_append.mp hc with hc | hc
    · obtain ⟨hfirst, hsecond⟩ := ht.ne_meta h.distinct hc
      rw [hheap]
      refine (h.classes c hc).kept ?_ (fun _ hf => hf) ?_ (hmeta hfirst.symm) (hmeta hsecond.symm)
      · rw [Heap.size_rawSet]
      · exact Heap.metatable_rawSet ..
    · cases List.mem_singleton.mp hc
  case instances =>
    intro c o ho
    rcases List.mem_append.mp ho with ho | ho
    · obtain ⟨hc, hsize, hmetatable⟩ := h.instances c o ho
      refine ⟨List.mem_append_left _ hc, ?_, ?_⟩
      · rwa [hheap, Heap.size_rawSet]
      · rw [hheap, Heap.metatable_rawSet, hmetatable]
    · cases List.mem_singleton.mp ho
  case written =>
    intro t' key' value' hw
    rcases List.mem_append.mp hw with hw | hw
    · exact member_append.mpr (.inl (h.written t' key' value' hw))
    · cases List.mem_singleton.mp hw
      exact member_append.mpr (.inl ht)
  case fields =>
    intro x hx key'
    rw [hheap, Heap.rawGet_rawSet _ _ _ hthere, h.fields x (hmember x hx), lastWritten_append]
    simp only [Event.after, eq_comm (a := x)]

/-- Whatever scripts write to classes and instances becomes a field of the table itself. -/
theorem assigns (h : Tidy env l w) {t : TableId} (ht : Member l t) (run : Evaluator) {s : Spot}
    (hs : s.env = env) (naming : Option Naming) (key value : Value) :
    Lua.setIndex run s Lua.chainLimit naming (.table t) key value w =
      Lua.setField s t key value w := by
  subst hs
  rcases ht with hc | ⟨c, ho⟩
  · exact (h.classes t hc).write naming key 99 value
  · obtain ⟨hc, hinstance⟩ := h.instances c t ho
    exact (h.classes c hc).write_instance naming key hinstance 99 value

end Tidy

theorem Story.tidy {env : EnvironmentId} {w₀ w : World} {l : List Event} (h : Story env w₀ l w) :
    Tidy env l w := by
  induction h with
  | begun h => exact .begun h
  | created _ hcreate ih =>
    rw [create_apply ih.allocated] at hcreate
    cases hcreate
    exact ih.created
  | @built l w w' c o run s args init _ hc hs hallocate ih =>
    subst hs
    rw [allocate_apply run s args ih.allocated (ih.classes c hc)] at hallocate
    cases hallocate
    exact ih.built hc
  | @wrote l w w' t run s naming key value _ ht hs hset ih =>
    subst hs
    rw [ih.assigns ht run rfl] at hset
    obtain ⟨-, rfl⟩ := (Lua.set_field_done_iff value w').mp hset
    exact ih.wrote ht key value
  | raw key value _ ht ih => exact ih.wrote ht key value
  | elsewhere _ he ih => exact ih.elsewhere he

/-- What holds of classes and instances at the end of a story. -/
structure ClassLaw (env : EnvironmentId) (w₀ : World) (l : List Event) (w : World) : Prop where
  /-- No table is made twice. -/
  distinct : (tablesOf l).Nodup
  /-- A class has what was last written to it. -/
  class_reads : ∀ c, .created c ∈ l → ∀ (run : Evaluator) (s : Spot) (naming : Option Naming)
    (key : Value), s.env = env →
      Lua.index run s Lua.chainLimit naming (.table c) key w = .done (lastWritten l c key) w
  /-- An instance has what was last written to it, else what its class has now. -/
  instance_reads : ∀ c o, .built c o ∈ l → ∀ (run : Evaluator) (s : Spot) (naming : Option Naming)
    (key : Value), s.env = env →
      Lua.index run s Lua.chainLimit naming (.table o) key w = .done (seen l c o key) w
  /-- Every field can be written. -/
  writes : ∀ t, Member l t → ∀ (run : Evaluator) (s : Spot) (naming : Option Naming)
    (key value : Value), s.env = env → key.IsKey →
      ∃ w', Lua.setIndex run s Lua.chainLimit naming (.table t) key value w = .done () w' ∧
        Story env w₀ (l ++ [.wrote t key value]) w'
  /-- A write to an instance is seen by no other one and by no class. -/
  instance_writes : ∀ c o, .built c o ∈ l → ∀ key value key',
    (∀ c', .created c' ∈ l →
      lastWritten (l ++ [.wrote o key value]) c' key' = lastWritten l c' key') ∧
    ∀ c' o', .built c' o' ∈ l → seen (l ++ [.wrote o key value]) c' o' key' =
      if o' = o ∧ key.same key' then resolve value (lastWritten l c' key') else seen l c' o' key'
  /-- A write to a class is seen by that class and its instances that lack the field. -/
  class_writes : ∀ c, .created c ∈ l → ∀ key value key',
    (∀ c', .created c' ∈ l → lastWritten (l ++ [.wrote c key value]) c' key' =
      if c' = c ∧ key.same key' then value else lastWritten l c' key') ∧
    ∀ c' o, .built c' o ∈ l → seen (l ++ [.wrote c key value]) c' o key' =
      if c' = c ∧ key.same key' ∧ (lastWritten l o key').isNil then value else seen l c' o key'
  /-- A new class is no table that is there. -/
  creates : ∃ c w', create env w = (.done c w' : Outcome HostError TableId) ∧
    (∀ t, t.index < (w.heap env).tables.size → c ≠ t) ∧ Story env w₀ (l ++ [.created c]) w'
  /-- To call a class with whatever arguments is to make an instance that is no table that is there,
  and to set it up by what the `__init__` of the class is now. -/
  calls : ∀ c, .created c ∈ l → ∃ o w', (∀ t, t.index < (w.heap env).tables.size → o ≠ t) ∧
    Story env w₀ (l ++ [.built c o]) w' ∧
    ∀ (limit fuel : Nat) (site : Site) (args : List Value), site.depth ≤ Engine.depthLimit →
      Engine.engine limit (fuel + 2) .values (.call env site (.table c) args) w =
        setUp (Engine.engine limit fuel) env (site.push .host) o
          (lastWritten l c (.text "__init__")) w'
  /-- What an `__init__` raises is raised by the call; there is no instance then. -/
  failures : ∀ (run : Evaluator) (site : Site) (o : TableId) (f : Lua.FunctionId) (v : Value)
    (w₁ w₂ : World), run .values (.call env site (.function f) [.table o]) w₁ = .raised v w₂ →
      (∀ vs w₃, setUp run env site o (.function f) w₁ ≠ .done vs w₃) ∧
      ∀ e w₃, Boundary.errorOf run env site v w₂ = (.done e w₃ : Outcome Value HostError) →
        w₃.Allocated env → ∃ v', setUp run env site o (.function f) w₁ =
          .raised v' (w₃.withError env e) ∧ (w₃.withError env e).Carries env v' e.message

section Writes

variable {l : List Event} {c o t : TableId} (key value key' : Value)

/-- A write is the last one to its field, and to no other. -/
theorem lastWritten_wrote (x : TableId) : lastWritten (l ++ [.wrote t key value]) x key' =
    if x = t ∧ key.same key' then value else lastWritten l x key' := by
  rw [lastWritten_append]
  simp only [Event.after, eq_comm (a := x)]

theorem instance_writes (hd : (tablesOf l).Nodup)
    (hclasses : ∀ c o, .built c o ∈ l → .created c ∈ l) (ho : .built c o ∈ l) :
    (∀ c', .created c' ∈ l →
      lastWritten (l ++ [.wrote o key value]) c' key' = lastWritten l c' key') ∧
    ∀ c' o', .built c' o' ∈ l → seen (l ++ [.wrote o key value]) c' o' key' =
      if o' = o ∧ key.same key' then resolve value (lastWritten l c' key')
      else seen l c' o' key' := by
  have hclass (c' : TableId) (hc' : .created c' ∈ l) :
      lastWritten (l ++ [.wrote o key value]) c' key' = lastWritten l c' key' := by
    rw [lastWritten_wrote, if_neg fun hboth => built_ne_created hd ho hc' hboth.1.symm]
  refine ⟨hclass, ?_⟩
  intro c' o' ho'
  rw [seen, hclass c' (hclasses c' o' ho'), lastWritten_wrote, seen]
  split <;> rfl

theorem class_writes (hd : (tablesOf l).Nodup) (hc : .created c ∈ l) :
    (∀ c', .created c' ∈ l → lastWritten (l ++ [.wrote c key value]) c' key' =
      if c' = c ∧ key.same key' then value else lastWritten l c' key') ∧
    ∀ c' o, .built c' o ∈ l → seen (l ++ [.wrote c key value]) c' o key' =
      if c' = c ∧ key.same key' ∧ (lastWritten l o key').isNil then value
      else seen l c' o key' := by
  refine ⟨fun c' _ => lastWritten_wrote key value key' c', ?_⟩
  intro c' o ho
  -- an instance that has the field does not ask its class
  have hown : lastWritten (l ++ [.wrote c key value]) o key' = lastWritten l o key' := by
    rw [lastWritten_wrote, if_neg fun hboth => built_ne_created hd ho hc hboth.1]
  rw [seen, hown, lastWritten_wrote, seen]
  unfold resolve
  cases (lastWritten l o key').isNil <;> simp

end Writes

section Failures

variable {run : Evaluator} {env : EnvironmentId} {site : Site} {o : TableId} {f : Lua.FunctionId}
  {v : Value} {w₁ w₂ : World}

theorem set_up_raised
    (hraised : run .values (.call env site (.function f) [.table o]) w₁ = .raised v w₂) :
    setUp run env site o (.function f) w₁ =
      (do Boundary.raiseIn env (← Boundary.errorOf run env site v)) w₂ := by
  dsimp only [setUp]
  rw [Act.bind_apply, Act.attempt_apply, hraised]

theorem raise_in_apply (e : HostError) (w : World) :
    (Boundary.raiseIn env e : Act Value (List Value)) w =
      .raised (.userdata (w.heap env).nextUserdata) (w.withError env e) := rfl

/-- Where an `__init__` raises, nothing is returned, also where its error cannot be told. -/
theorem failed_without_results
    (hraised : run .values (.call env site (.function f) [.table o]) w₁ = .raised v w₂)
    (vs : List Value) (w₃ : World) : setUp run env site o (.function f) w₁ ≠ .done vs w₃ := by
  intro hdone
  rw [set_up_raised hraised] at hdone
  obtain ⟨e, w₄, -, hraise⟩ := Act.bind_done_iff.mp hdone
  rw [raise_in_apply] at hraise
  cases hraise

theorem failed_with_error
    (hraised : run .values (.call env site (.function f) [.table o]) w₁ = .raised v w₂)
    (e : HostError) (w₃ : World)
    (herror : Boundary.errorOf run env site v w₂ = (.done e w₃ : Outcome Value HostError))
    (halloc : w₃.Allocated env) :
    ∃ v', setUp run env site o (.function f) w₁ = .raised v' (w₃.withError env e) ∧
      (w₃.withError env e).Carries env v' e.message := by
  refine ⟨.userdata (w₃.heap env).nextUserdata, ?_, w₃.carries_withError env halloc e⟩
  rw [set_up_raised hraised, Act.bind_apply, herror]
  exact raise_in_apply e w₃

end Failures

/-- An instance can be made of every class at any time. -/
theorem Story.born {env : EnvironmentId} {w₀ w : World} {l : List Event} {c : TableId}
    (h : Story env w₀ l w) (hc : .created c ∈ l) :
    Story env w₀ (l ++ [.built c (w.heap env).nextTable]) (bornInstance env c w) := by
  -- neither the engine nor the place of the call matters before `__init__` is called
  let s : Spot := ⟨env, .outside, none⟩
  have hallocate : allocate (Engine.engine 0 0) s [.table c] w =
      .done ((w.heap env).nextTable, (w.heap env).rawGet c (Conversion.ofText "__init__"))
        (bornInstance env c w) := allocate_apply _ s [] h.tidy.allocated (h.tidy.classes c hc)
  have hs : s.env = env := rfl
  exact h.built hc hs hallocate

theorem classes_follow_history {env : EnvironmentId} {w₀ w : World} {l : List Event}
    (h : Story env w₀ l w) : ClassLaw env w₀ l w := by
  have htidy := h.tidy
  have hinit : Conversion.ofText "__init__" = .text "__init__" :=
    congrArg Value.string (by decide)
  constructor
  case distinct => exact htidy.distinct
  case class_reads =>
    rintro c hc run s naming key rfl
    rw [Lua.chainLimit, (htidy.classes c hc).read, htidy.fields c (.inl hc)]
  case instance_reads =>
    rintro c o ho run s naming key rfl
    obtain ⟨hc, hinstance⟩ := htidy.instances c o ho
    rw [Lua.chainLimit, (htidy.classes c hc).read_instance naming key hinstance,
      htidy.fields o (.inr ⟨c, ho⟩), htidy.fields c (.inl hc), seen]
  case writes =>
    rintro t ht run s naming key value rfl hkey
    have hset := (htidy.assigns ht run rfl naming key value).trans (Lua.set_field_apply hkey value)
    exact ⟨_, hset, h.wrote ht rfl hset⟩
  case instance_writes =>
    intro c o ho key value key'
    exact Classes.instance_writes key value key' htidy.distinct
      (fun c o ho => (htidy.instances c o ho).1) ho
  case class_writes =>
    intro c hc key value key'
    exact Classes.class_writes key value key' htidy.distinct hc
  case creates =>
    have hcreate : (create env w : Outcome HostError TableId) = _ := create_apply htidy.allocated
    refine ⟨_, _, hcreate, ?_, h.created hcreate⟩
    rintro t ht rfl
    exact Nat.lt_irrefl _ ht
  case calls =>
    intro c hc
    have hclass := htidy.classes c hc
    refine ⟨_, _, ?_, h.born hc, fun limit fuel site args hdepth => ?_⟩
    · rintro t ht rfl
      exact Nat.lt_irrefl _ ht
    · rw [call_apply limit fuel args (Nat.not_lt.mpr hdepth) htidy.allocated hclass, hinit,
        htidy.fields c (.inl hc)]
  case failures =>
    intro run site o f v w₁ w₂ hraised
    exact ⟨failed_without_results hraised, failed_with_error hraised⟩

/-- In an environment that has run nothing yet a class is made and given a field, and an instance of
it is made and given the field as well. It has its own value then, and the class its former one. -/
theorem instance_shadows_class :
    ∃ c o w, Story ⟨0⟩ (World.new Config.default default).extended
      [.created c, .wrote c (.text "hull") (.text "whole"), .built c o,
        .wrote o (.text "hull") (.text "broken")] w ∧
      Lua.index (Engine.engine 0 0) ⟨⟨0⟩, .outside, none⟩ Lua.chainLimit none (.table o)
        (.text "hull") w = .done (.text "broken") w ∧
      Lua.index (Engine.engine 0 0) ⟨⟨0⟩, .outside, none⟩ Lua.chainLimit none (.table c)
        (.text "hull") w = .done (.text "whole") w := by
  let run := Engine.engine 0 0
  let s : Spot := ⟨⟨0⟩, .outside, none⟩
  have halloc : (World.new Config.default default).extended.Allocated ⟨0⟩ := Nat.zero_lt_one
  obtain ⟨c, w₁, -, -, hcreated⟩ := (classes_follow_history (.begun halloc)).creates
  obtain ⟨w₂, -, hnamed⟩ := (classes_follow_history hcreated).writes c (.inl (by simp)) run s none
    (.text "hull") (.text "whole") rfl trivial
  obtain ⟨o, w₃, -, hbuilt, -⟩ := (classes_follow_history hnamed).calls c (by simp)
  obtain ⟨w₄, -, hbroken⟩ := (classes_follow_history hbuilt).writes o (.inr ⟨c, by simp⟩) run s none
    (.text "hull") (.text "broken") rfl trivial
  have hlaw := classes_follow_history hbroken
  -- what is read of an object depends on its own fields before those of its class
  have hapart : o ≠ c := built_ne_created hlaw.distinct (c := c) (by simp) (by simp)
  have hself : (Value.text "hull").same (.text "hull") = true := by decide
  have hshared : lastWritten ([] ++ [.created c] ++ [.wrote c (.text "hull") (.text "whole")] ++
      [.built c o]) c (.text "hull") = .text "whole" :=
    lastWritten_append.trans ((lastWritten_wrote _ _ _ c).trans (if_pos ⟨rfl, hself⟩))
  refine ⟨c, o, w₄, hbroken, ?_, ?_⟩
  · rw [hlaw.instance_reads c o (by simp) run s none _ rfl, seen, lastWritten_wrote,
      if_pos ⟨rfl, hself⟩]
    rfl
  · rw [hlaw.class_reads c (by simp) run s none _ rfl, lastWritten_wrote,
      if_neg fun hboth => hapart hboth.1.symm, hshared]

end ScenarioHost.Classes
