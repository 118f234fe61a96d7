import ScenarioHost.Proofs.Bindings

/-!
Functions that are bound under names which a table does not have stand behind its entries, in the
order of the names. So the globals of a new environment can be told without asking for each name
whether it was bound before.
-/
namespace ScenarioHost

namespace Lua

namespace Table

def withEntries (t : Table) (es : List (Value × Value)) : Table :=
  { t with entries := ⟨t.entries.toList ++ es⟩ }

variable (t : Table)

theorem withEntries_twice (es fs : List (Value × Value)) :
    (t.withEntries es).withEntries fs = t.withEntries (es ++ fs) := by
  unfold withEntries
  rw [List.append_assoc]

/-- The value of a name that is new becomes the last entry. -/
theorem set_string_new {k : ByteString} (hnew : t.entryIndex? (.string k) = none) {v : Value}
    (hv : v.isNil = false) : t.set (.string k) v = t.withEntries [(.string k, v)] := by
  have hpush : t.entries.push (.string k, v) = ⟨t.entries.toList ++ [(.string k, v)]⟩ :=
    Array.ext' Array.toList_push
  change t.setEntry (.string k) v = _
  unfold setEntry withEntries
  rw [hnew]
  dsimp only
  rw [hv, if_neg Bool.false_ne_true, hpush]

theorem missing_withEntries {k : Value} (hold : t.entryIndex? k = none) {es : List (Value × Value)}
    (hes : ∀ e ∈ es, e.1.same k = false) : (t.withEntries es).entryIndex? k = none := by
  rw [entryIndex_eq_findIdx, List.findIdx?_eq_none_iff] at hold ⊢
  intro e he
  rcases List.mem_append.mp he with he | he
  · exact hold e he
  · exact hes e he

end Table

namespace Heap

variable (h : Heap) (t : TableId)

/-- A change of a table is known by what it makes of the table that is there. -/
theorem modify_congr {f g : Table → Table} (hfg : f (h.table t) = g (h.table t)) :
    h.tables.modify t.index f = h.tables.modify t.index g := by
  apply Array.ext_getElem?
  intro i
  rw [Array.getElem?_modify, Array.getElem?_modify]
  split
  case isTrue heq =>
    subst heq
    cases htable : h.tables[t.index]? with
    | none => rfl
    | some table =>
      rw [Heap.table, Array.getD_eq_getD_getElem?, htable, Option.getD_some] at hfg
      exact congrArg some hfg
  case isFalse => rfl

theorem modify_twice (f g : Table → Table) :
    (h.tables.modify t.index f).modify t.index g =
      h.tables.modify t.index fun table => g (f table) := by
  apply Array.ext_getElem?
  intro i
  simp only [Array.getElem?_modify]
  split
  case isTrue => rw [Option.map_map]; rfl
  case isFalse => rfl

end Heap

namespace Library

def numbered : (first : Nat) → List (String × Builtin) → List (Value × Value)
  | _, [] => []
  | first, f :: rest => (.text f.1, .function ⟨first⟩) :: numbered (first + 1) rest

def listing (h : Heap) (t : TableId) (functions : List (String × Builtin)) : Heap :=
  { h with
    tables := h.tables.modify t.index fun table =>
      table.withEntries (numbered h.functions.size functions)
    functions := ⟨h.functions.toList ++ functions.map fun f => .builtin f.2⟩ }

theorem numbered_append (first : Nat) (fs gs : List (String × Builtin)) :
    numbered first (fs ++ gs) = numbered first fs ++ numbered (first + fs.length) gs := by
  induction fs generalizing first with
  | nil => rfl
  | cons f fs ih =>
    rw [List.cons_append, numbered, ih, numbered, List.cons_append, List.length_cons,
      Nat.add_assoc, Nat.add_comm 1]

variable (h : Heap) (t : TableId)

theorem listing_nil : listing h t [] = h := by
  have htables : h.tables.modify t.index (fun table => table.withEntries []) = h.tables := by
    apply Array.ext_getElem?
    intro i
    have hsame (table : Table) : table.withEntries [] = table := by
      unfold Table.withEntries
      rw [List.append_nil]
    simp only [Array.getElem?_modify, hsame, Option.map_id']
    split <;> rfl
  unfold listing
  rw [numbered, htables, List.map_nil, List.append_nil]

theorem listing_listing (fs gs : List (String × Builtin)) :
    listing (listing h t fs) t gs = listing h t (fs ++ gs) := by
  have hsize : (⟨h.functions.toList ++ fs.map fun f => .builtin f.2⟩ : Array Function).size =
      h.functions.size + fs.length := by
    rw [List.size_toArray, List.length_append, List.length_map, Array.length_toList]
  unfold listing
  dsimp only
  rw [h.modify_twice, hsize, List.map_append, List.append_assoc]
  simp only [Table.withEntries_twice, numbered_append]

theorem bindBuiltin_new {f : String × Builtin}
    (hnew : (h.table t).entryIndex? (.text f.1) = none) :
    bindBuiltin t h f = listing h t [f] := by
  have hset := h.modify_congr t (f := fun table => table.set (.text f.1) (.function h.nextFunction))
    (g := fun table => table.withEntries [(.text f.1, .function h.nextFunction)])
    ((h.table t).set_string_new hnew rfl)
  have hpush : h.functions.push (.builtin f.2) = ⟨h.functions.toList ++ [.builtin f.2]⟩ :=
    Array.ext' Array.toList_push
  unfold bindBuiltin bind Heap.rawSet Heap.addFunction listing
  dsimp only
  rw [hset, hpush]
  rfl

/-- A name stays new while others are bound. -/
theorem missing_listing {f : String × Builtin} {name : String} (hname : f.1 ≠ name)
    (hnew : (h.table t).entryIndex? (.text name) = none) :
    ((listing h t [f]).table t).entryIndex? (.text name) = none := by
  have hother : (Value.text f.1).same (.text name) = false := by
    rw [Bool.eq_false_iff, Ne, Value.text, Value.text, Value.same_string]
    exact fun heq => hname (ByteString.mk.inj (Value.string.inj heq))
  unfold Heap.table listing
  dsimp only
  rw [Array.getD_eq_getD_getElem?, Array.getElem?_modify, if_pos rfl]
  rw [Heap.table, Array.getD_eq_getD_getElem?] at hnew
  cases htable : h.tables[t.index]? with
  | none =>
    rw [htable] at hnew
    exact hnew
  | some table =>
    rw [htable] at hnew
    exact table.missing_withEntries hnew (List.forall_mem_singleton.mpr hother)

/-- Distinct names that are new to a table are bound in the order in which they are given. -/
theorem bindAll_new {functions : List (String × Builtin)}
    (hnames : (functions.map Prod.fst).Nodup)
    (hnew : ∀ f ∈ functions, (h.table t).entryIndex? (.text f.1) = none) :
    bindAll h t functions = listing h t functions := by
  -- on the functions in the order of binding: each name leaves those that come later new
  induction functions generalizing h with
  | nil => exact (listing_nil h t).symm
  | cons f rest ih =>
    obtain ⟨hfirst, hrest⟩ := List.nodup_cons.mp hnames
    have hlater : ∀ g ∈ rest, ((listing h t [f]).table t).entryIndex? (.text g.1) = none := by
      intro g hg
      have hne : f.1 ≠ g.1 := fun heq => hfirst (heq ▸ List.mem_map_of_mem hg)
      exact missing_listing h t hne (hnew g (List.mem_cons_of_mem f hg))
    change bindAll (bindBuiltin t h f) t rest = _
    rw [bindBuiltin_new h t (hnew f List.mem_cons_self), ih _ hrest hlater, listing_listing]
    rfl

end Library

end Lua

namespace Environments

open Lua.Library

def listed : Environment :=
  ⟨listing (withHostMetatables standardHeap.1) standardHeap.2 (named .host hostFunctions),
    standardHeap.2, none, true, 0, 0⟩

theorem host_names_new : ∀ f ∈ named .host hostFunctions,
    ((withHostMetatables standardHeap.1).table standardHeap.2).entryIndex? (.text f.1) = none := by
  decide +kernel

theorem initial_eq_listed : initial = listed := by
  have hnames : ((named .host hostFunctions).map Prod.fst).Nodup := by
    rw [named, List.map_map]
    exact host_names_distinct
  have hheap := bindAll_new (withHostMetatables standardHeap.1) standardHeap.2 hnames host_names_new
  unfold initial initialHeap listed
  dsimp only
  rw [hheap]

end Environments

theorem World.extended_eq_listed (w : World) :
    w.extended = { w with environments := w.environments.push Environments.listed } := by
  rw [World.extended, Environments.initial_eq_listed]

end ScenarioHost
