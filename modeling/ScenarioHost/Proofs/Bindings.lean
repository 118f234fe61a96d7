import ScenarioHost.Reference
import ScenarioHost.Proofs.Propagation

/-!
Functions under global names. A table gives for a text what was set last, so a list of functions
with distinct names is bound as a whole; a new environment has every documented function in that
way.
-/
namespace ScenarioHost

/-! Changing one element of a list. -/

section Changes

variable {α : Type} {p q : α → Bool} {f : α → α} {l : List α} {i : Nat}

/-- The first element of a kind is changed, and stays of that kind. -/
theorem find_modify_self (hi : l.findIdx? p = some i) (hf : ∀ a, p (f a) = p a) :
    ∃ a, (l.modify i f).find? p = some (f a) := by
  induction l generalizing i with
  | nil => cases hi
  | cons a l ih =>
    rw [List.findIdx?_cons] at hi
    cases ha : p a with
    | true =>
      rw [ha, if_pos rfl] at hi
      cases hi
      rw [List.modify_zero_cons, List.find?_cons_of_pos ((hf a).trans ha)]
      exact ⟨a, rfl⟩
    | false =>
      rw [ha, if_neg Bool.false_ne_true] at hi
      obtain ⟨j, hj, rfl⟩ := Option.map_eq_some_iff.mp hi
      rw [List.modify_succ_cons, List.find?_cons_of_neg (Bool.eq_false_iff.mp ha)]
      exact ih hj

/-- Elements of other kinds are found as before. -/
theorem find_modify_other (hi : l.findIdx? p = some i) (hp : ∀ a, p a = true → q a = false)
    (hf : ∀ a, q (f a) = q a) : (l.modify i f).find? q = l.find? q := by
  induction l generalizing i with
  | nil => cases hi
  | cons a l ih =>
    rw [List.findIdx?_cons] at hi
    cases ha : p a with
    | true =>
      rw [ha, if_pos rfl] at hi
      cases hi
      have hneg : ¬ q a = true := Bool.eq_false_iff.mp (hp a ha)
      have hneg' : ¬ q (f a) = true := by rwa [hf a]
      rw [List.modify_zero_cons, List.find?_cons_of_neg hneg, List.find?_cons_of_neg hneg']
    | false =>
      rw [ha, if_neg Bool.false_ne_true] at hi
      obtain ⟨j, hj, rfl⟩ := Option.map_eq_some_iff.mp hi
      rw [List.modify_succ_cons, List.find?_cons, List.find?_cons, ih hj]

end Changes

namespace Lua

theorem Value.same_string (v : Value) (k : ByteString) : v.same (.string k) = true ↔ v = .string k := by
  cases v <;> simp [Value.same]

namespace Table

theorem entry_eq_find (t : Table) (k : Value) :
    t.entry k = ((t.entries.toList.find? fun e => e.1.same k).map Prod.snd).getD .nil := by
  rw [entry, ← Array.find?_toList]
  cases t.entries.toList.find? fun e => e.1.same k <;> rfl

theorem entryIndex_eq_findIdx (t : Table) (k : Value) :
    t.entryIndex? k = t.entries.toList.findIdx? fun e => e.1.same k :=
  List.findIdx?_toArray _ t.entries.toList

section Entries

variable {t : Table} {k k' : Value}

/-- A key without an entry has none under another spelling. -/
theorem find_of_missing (hmissing : t.entryIndex? k = none)
    (hsame : ∀ w : Value, w.same k = w.same k') :
    t.entries.toList.find? (fun e => e.1.same k') = none := by
  rw [entryIndex_eq_findIdx] at hmissing
  refine List.find?_eq_none.mpr fun e he => ?_
  rw [← hsame e.1]
  exact Bool.eq_false_iff.mp (List.findIdx?_eq_none_iff.mp hmissing e he)

theorem entry_of_missing (hmissing : t.entryIndex? k = none)
    (hsame : ∀ w : Value, w.same k = w.same k') : t.entry k' = .nil := by
  rw [entry_eq_find, find_of_missing hmissing hsame]
  rfl

variable (hsame : k.same k' = true → ∀ w : Value, w.same k = w.same k')

include hsame

/-- A new entry is the one of its key. -/
theorem entry_push (hmissing : t.entryIndex? k = none) (v : Value) :
    entry { t with entries := t.entries.push (k, v) } k' =
      if k.same k' then v else t.entry k' := by
  rw [entry_eq_find, Array.toList_push, List.find?_append, entry_eq_find]
  cases hk : k.same k' with
  | true =>
    have hlast : [(k, v)].find? (fun e => e.1.same k') = some (k, v) := List.find?_cons_of_pos hk
    rw [find_of_missing hmissing (hsame hk), hlast]
    rfl
  | false =>
    have hlast : [(k, v)].find? (fun e => e.1.same k') = none :=
      List.find?_cons_of_neg (Bool.eq_false_iff.mp hk)
    rw [hlast, Option.or_none]
    rfl

variable (hother : k.same k' = false → ∀ w : Value, w.same k = true → w.same k' = false)

include hother

/-- An entry that is changed keeps its key and its place. -/
theorem entry_modify {i : Nat} (hi : t.entryIndex? k = some i) (v : Value) :
    entry { t with entries := t.entries.modify i fun e => (e.1, v) } k' =
      if k.same k' then v else t.entry k' := by
  rw [entryIndex_eq_findIdx] at hi
  rw [entry_eq_find, Array.toList_modify, entry_eq_find]
  cases hk : k.same k' with
  | true =>
    have hpred : (fun e : Value × Value => e.1.same k') = fun e => e.1.same k :=
      funext fun e => (hsame hk e.1).symm
    obtain ⟨e, he⟩ := find_modify_self (f := fun e => (e.1, v)) hi fun _ => rfl
    rw [hpred, he]
    rfl
  | false =>
    rw [find_modify_other (f := fun e => (e.1, v)) hi (fun e => hother hk e.1) fun _ => rfl]
    rfl

end Entries

/-- What a change of the value of one key means for the entry of another one; for keys of most
kinds the conditions say no more than that equality is an equivalence. -/
theorem entry_setEntry (t : Table) (k v : Value) {k' : Value}
    (hsame : k.same k' = true → ∀ w : Value, w.same k = w.same k')
    (hother : k.same k' = false → ∀ w : Value, w.same k = true → w.same k' = false) :
    (t.setEntry k v).entry k' = if k.same k' then v else t.entry k' := by
  unfold setEntry
  cases hi : t.entryIndex? k with
  | some i => exact entry_modify hsame hother hi v
  | none =>
    dsimp only
    split
    case isFalse => exact entry_push hsame hi v
    case isTrue hnil =>
      -- nothing is kept for a key that has no value
      obtain rfl : v = .nil := by cases v <;> first | rfl | cases hnil
      split
      case isTrue hk => exact entry_of_missing hi (hsame hk)
      case isFalse => rfl

@[simp] theorem items_setEntry (t : Table) (k v : Value) : (t.setEntry k v).items = t.items := by
  unfold setEntry
  split
  · rfl
  · split <;> rfl

@[simp] theorem metatable_setEntry (t : Table) (k v : Value) :
    (t.setEntry k v).metatable = t.metatable := by
  unfold setEntry
  split
  · rfl
  · split <;> rfl

variable (t : Table) (k : ByteString) (v : Value)

theorem metatable_set_string : (t.set (.string k) v).metatable = t.metatable :=
  t.metatable_setEntry ..

theorem entry_set_string (key : Value) :
    (t.set (.string k) v).entry key = if (Value.string k).same key then v else t.entry key := by
  refine t.entry_setEntry _ v (fun hsame w => ?_) fun hother w hw => ?_
  · have hkey : key = .string k := by
      cases key with
      | string k' => exact ((Value.same_string _ k').mp hsame).symm
      | _ => cases hsame
    rw [hkey]
  · rwa [(Value.same_string w k).mp hw]

theorem get_set_self : (t.set (.string k) v).get (.string k) = v := by
  change (t.set (.string k) v).entry (.string k) = v
  rw [entry_set_string, (Value.same_string _ k).mpr rfl, if_pos rfl]

/-- The values of all other keys stay. -/
theorem get_set_other {key : Value} (hne : key ≠ .string k) :
    (t.set (.string k) v).get key = t.get key := by
  have hentry : (t.set (.string k) v).entry key = t.entry key := by
    have hdiffers : (Value.string k).same key = false := by
      cases key with
      | string k' =>
        rw [Bool.eq_false_iff, Ne, Value.same_string]
        exact fun h => hne h.symm
      | _ => rfl
    rw [entry_set_string, hdiffers]
    rfl
  have hitems : (t.set (.string k) v).items = t.items := t.items_setEntry ..
  cases key <;> simp only [get, hentry, hitems]

end Table

namespace Heap

variable (h : Heap) (t : TableId) (name : String) (v : Value)

theorem table_rawSet (key : Value) : (h.rawSet t key v).table t =
    if t.index < h.tables.size then (h.table t).set key v else h.table t := by
  unfold rawSet table
  simp only [Array.getD_eq_getD_getElem?, Array.getElem?_modify, if_true]
  split
  · rename_i ht
    rw [Array.getElem?_eq_getElem ht, Option.map_some, Option.getD_some, Option.getD_some]
  · rename_i ht
    rw [Array.getElem?_eq_none (Nat.le_of_not_lt ht), Option.map_none]

theorem table_rawSet_other {other : TableId} (hne : other ≠ t) (key : Value) :
    (h.rawSet t key v).table other = h.table other := by
  have hindex : t.index ≠ other.index := fun heq => hne (congrArg TableId.mk heq.symm)
  unfold rawSet table
  rw [Array.getD_eq_getD_getElem?, Array.getD_eq_getD_getElem?, Array.getElem?_modify,
    if_neg hindex]

theorem rawGet_rawSet_self (ht : t.index < h.tables.size) :
    (h.rawSet t (.text name) v).rawGet t (.text name) = v := by
  rw [rawGet, table_rawSet, if_pos ht]
  exact (h.table t).get_set_self ⟨name⟩ v

theorem rawGet_rawSet_other {key : Value} (hne : key ≠ .text name) :
    (h.rawSet t (.text name) v).rawGet t key = h.rawGet t key := by
  rw [rawGet, table_rawSet, rawGet]
  split
  · exact (h.table t).get_set_other ⟨name⟩ v hne
  · rfl

def Binds (b : Builtin) : Prop := h.builtin? (h.rawGet t (.text name)) = some b

/-- Functions that are there stay where they are. -/
theorem builtin_addFunction {f : Value} {b : Builtin} (hf : h.builtin? f = some b) (g : Function) :
    (h.addFunction g).builtin? f = some b := by
  obtain ⟨id, rfl, hid⟩ := function_of_builtin hf
  obtain ⟨hsize, hfunction⟩ := Array.getElem?_eq_some_iff.mp hid
  have hkept : (h.addFunction g).function? id = some (.builtin b) := by
    rw [function?, addFunction, Array.getElem?_push_lt hsize, hfunction]
  rw [builtin?, hkept]

theorem builtin_rawSet (key f : Value) : (h.rawSet t key v).builtin? f = h.builtin? f := by
  cases f <;> rfl

end Heap

namespace Library

variable (h : Heap) (t : TableId) (name : String) (b : Builtin)

theorem size_bindBuiltin (f : String × Builtin) :
    (bindBuiltin t h f).tables.size = h.tables.size := Array.size_modify

theorem binds_self (ht : t.index < h.tables.size) :
    (bindBuiltin t h (name, b)).Binds t name b := by
  have hname := (h.addFunction (.builtin b)).rawGet_rawSet_self t name (.function h.nextFunction) ht
  have hfunction : (h.addFunction (.builtin b)).function? h.nextFunction = some (.builtin b) :=
    Array.getElem?_push_size
  unfold Heap.Binds bindBuiltin bind
  rw [hname, Heap.builtin_rawSet, Heap.builtin?, hfunction]

theorem binds_other {h : Heap} {name : String} {b : Builtin} (hb : h.Binds t name b)
    (f : String × Builtin) (hne : name ≠ f.1) : (bindBuiltin t h f).Binds t name b := by
  have hkey : Value.text name ≠ .text f.1 :=
    fun heq => hne (ByteString.mk.inj (Value.string.inj heq))
  have hname := (h.addFunction (.builtin f.2)).rawGet_rawSet_other t f.1
    (.function h.nextFunction) hkey
  unfold Heap.Binds bindBuiltin bind
  rw [hname, Heap.builtin_rawSet]
  exact h.builtin_addFunction hb (.builtin f.2)

theorem binds_kept {h : Heap} {name : String} {b : Builtin} (hb : h.Binds t name b)
    {functions : List (String × Builtin)} (hname : name ∉ functions.map Prod.fst) :
    (bindAll h t functions).Binds t name b := by
  induction functions generalizing h with
  | nil => exact hb
  | cons f functions ih =>
    rw [List.map_cons] at hname
    exact ih (binds_other t hb f (List.ne_of_not_mem_cons hname)) (List.not_mem_of_not_mem_cons hname)

/-- Each of a list of functions with distinct names is bound under its own. -/
theorem binds_all (ht : t.index < h.tables.size) {functions : List (String × Builtin)}
    (hnames : (functions.map Prod.fst).Nodup) (hmem : (name, b) ∈ functions) :
    (bindAll h t functions).Binds t name b := by
  -- on the functions in the order of binding: the names that come later are others
  induction functions generalizing h with
  | nil => exact absurd hmem List.not_mem_nil
  | cons f functions ih =>
    obtain ⟨hnew, hrest⟩ := List.nodup_cons.mp hnames
    rcases List.mem_cons.mp hmem with rfl | hmem
    · exact binds_kept t (binds_self h t name b ht) hnew
    · exact ih (bindBuiltin t h f) (by rwa [size_bindBuiltin]) hrest hmem

end Library

end Lua

namespace Environments

open Lua Lua.Library

theorem host_names_distinct : (hostFunctions.map Prod.fst).Nodup := by decide

theorem names_of_reference : ∀ name ∈ Reference.names, name ∈ hostFunctions.map Prod.fst := by
  decide

theorem initial_globals : initialHeap.2.index < (withHostMetatables standardHeap.1).tables.size := by
  decide +kernel

/-- An environment that has run nothing yet has every function of the host. -/
theorem initial_binds {name : String} {f : HostFunction} (hmem : (name, f) ∈ hostFunctions) :
    initial.heap.Binds initial.globals name (.host f) := by
  have hnames : ((named .host hostFunctions).map Prod.fst).Nodup := by
    rw [named, List.map_map]
    exact host_names_distinct
  have hnamed : (name, Builtin.host f) ∈ named .host hostFunctions :=
    List.mem_map.mpr ⟨(name, f), hmem, rfl⟩
  exact binds_all _ _ name _ initial_globals hnames hnamed

end Environments

def World.Provides (w : World) (e : EnvironmentId) (name : String) : Prop :=
  ∃ f, (name, f) ∈ Environments.hostFunctions ∧
    (w.heap e).Binds (w.environment e).globals name (.host f)

/-- What is documented is there before anything runs. -/
theorem World.provides_extended (w : World) {name : String} (hname : name ∈ Reference.names) :
    w.extended.Provides w.nextEnvironment name := by
  obtain ⟨⟨name, f⟩, hf, rfl⟩ := List.mem_map.mp (Environments.names_of_reference name hname)
  refine ⟨f, hf, ?_⟩
  rw [heap, environment_extended, if_pos rfl]
  exact Environments.initial_binds hf

end ScenarioHost
