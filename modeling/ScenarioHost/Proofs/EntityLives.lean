import Mathlib.Data.List.Basic
import Mathlib.Data.List.Induction
import Mathlib.Tactic
import ScenarioHost.Entities

/-!
Ids of entities over time. An id stands for one entity, from the moment it is made until it is
removed, and never again: the row of an entity that is gone is given out with a later generation.
This holds as long as rows and generations fit into the halves of an id.
-/
namespace ScenarioHost

namespace EntityRow

def Issued (r : EntityRow) (generation : Nat) : Prop :=
  generation < r.generation ∨ generation = r.generation ∧ r.live = true

def Gone (r : EntityRow) (generation : Nat) : Prop := generation < r.generation

theorem issued_removed (generation k : Nat) :
    Issued ⟨generation + 1, false⟩ k ↔ Issued ⟨generation, true⟩ k := by
  simp only [Issued, Bool.false_eq_true, and_false, or_false, and_true]
  omega

theorem gone_removed (generation k : Nat) (live live' : Bool) :
    Gone ⟨generation + 1, live⟩ k ↔ Gone ⟨generation, live'⟩ k ∨ k = generation := by
  simp only [Gone]
  omega

end EntityRow

namespace Entities

/-! Ids. -/

theorem eq_pack_iff {row generation id : Nat} (hrow : row ≤ 0xFFFFFFFF) :
    id = pack row generation ↔ rowOf id = row ∧ generationOf id = generation := by
  unfold pack rowOf generationOf
  omega

theorem rowOf_pack {row : Nat} (hrow : row ≤ 0xFFFFFFFF) (generation : Nat) :
    rowOf (pack row generation) = row :=
  ((eq_pack_iff hrow).mp rfl).1

theorem rowOf_le (id : Nat) : rowOf id ≤ 0xFFFFFFFF := Nat.sub_le ..

/-- An id is known by its row and its generation. -/
theorem eq_iff_halves (id other : Nat) :
    other = id ↔ rowOf other = rowOf id ∧ generationOf other = generationOf id := by
  unfold rowOf generationOf
  omega

def RowHas (e : Entities) (P : EntityRow → Nat → Prop) (id : Nat) : Prop :=
  ∃ r, e.rows[rowOf id]? = some r ∧ P r (generationOf id)

/-- An id without a row is that of no entity, so the other half of it does not matter. -/
theorem contains_iff_row {e : Entities} (hrows : e.rows.size ≤ 0xFFFFFFFF) (id : Nat) :
    e.contains id = true ↔ e.rows[rowOf id]? = some ⟨generationOf id, true⟩ := by
  have hzero (r : EntityRow) (hr : e.rows[rowOf id]? = some r) : id % 0x100000000 ≠ 0 := by
    obtain ⟨hlt, -⟩ := Array.getElem?_eq_some_iff.mp hr
    unfold rowOf at hlt
    omega
  unfold contains
  cases hrow : e.rows[rowOf id]? with
  | none => simp
  | some r =>
    obtain ⟨generation, live⟩ := r
    have hid := hzero _ hrow
    cases live <;> simp [hid]

theorem contains_iff_issued {e : Entities} (hrows : e.rows.size ≤ 0xFFFFFFFF) (id : Nat) :
    e.contains id = true ↔ e.RowHas EntityRow.Issued id ∧ ¬ e.RowHas EntityRow.Gone id := by
  rw [contains_iff_row hrows]
  unfold RowHas EntityRow.Issued EntityRow.Gone
  cases hrow : e.rows[rowOf id]? with
  | none => simp
  | some r =>
    obtain ⟨generation, live⟩ := r
    simp only [Option.some.injEq, exists_eq_left', EntityRow.mk.injEq]
    cases live with
    | true =>
      simp only [and_true]
      omega
    | false =>
      simp only [Bool.false_eq_true, and_false, or_false, and_not_self]

/-! Changes of one row. -/

section Rows

variable {e : Entities} {row : Nat} {r : EntityRow}

def Puts (e e' : Entities) (row : Nat) (r : EntityRow) : Prop :=
  ∀ i, e'.rows[i]? = if i = row then some r else e.rows[i]?

theorem puts_set (hrow : e.rows[row]? = some r) (r' : EntityRow) (free : List Nat) :
    e.Puts ⟨e.rows.setIfInBounds row r', free⟩ row r' := by
  intro i
  obtain ⟨hlt, -⟩ := Array.getElem?_eq_some_iff.mp hrow
  dsimp only
  rw [Array.getElem?_setIfInBounds, if_pos hlt]
  simp only [eq_comm]

theorem puts_push (r : EntityRow) (free : List Nat) :
    e.Puts ⟨e.rows.push r, free⟩ e.rows.size r := fun _ => Array.getElem?_push

theorem rowHas_iff {P : EntityRow → Nat → Prop} {id : Nat} (hrow : e.rows[rowOf id]? = some r) :
    e.RowHas P id ↔ P r (generationOf id) := by
  unfold RowHas
  rw [hrow]
  simp only [Option.some.injEq, exists_eq_left']

theorem Puts.rowHas {e' : Entities} (h : e.Puts e' row r) (P : EntityRow → Nat → Prop) (id : Nat) :
    e'.RowHas P id ↔ if rowOf id = row then P r (generationOf id) else e.RowHas P id := by
  have hput := h (rowOf id)
  split
  case isTrue heq => exact rowHas_iff (hput.trans (if_pos heq))
  case isFalse hne =>
    unfold RowHas
    rw [hput, if_neg hne]

/-- A live row counts for one. -/
theorem size_set (hrow : e.rows[row]? = some r) (r' : EntityRow) (free : List Nat) :
    size ⟨e.rows.setIfInBounds row r', free⟩ + r.live.toNat = e.size + r'.live.toNat := by
  obtain ⟨hlt, rfl⟩ := Array.getElem?_eq_some_iff.mp hrow
  have hlist : row < e.rows.toList.length := hlt
  have hpos : e.rows[row].live = true → 0 < e.rows.toList.countP EntityRow.live := by
    intro hlive
    exact List.countP_pos_iff.mpr ⟨_, Array.getElem_mem_toList hlt, hlive⟩
  unfold size
  rw [← List.countP_eq_length_filter, ← List.countP_eq_length_filter, Array.toList_setIfInBounds,
    List.countP_set hlist, Array.getElem_toList]
  generalize e.rows.toList.countP EntityRow.live = count at hpos
  cases hold : e.rows[row].live with
  | false => cases r'.live <;> rfl
  | true =>
    -- the row is one of those counted
    have hcount := hpos hold
    cases r'.live with
    | false => exact Nat.sub_add_cancel hcount
    | true => exact congrArg (· + 1) (Nat.sub_add_cancel hcount)

theorem size_push (r : EntityRow) (free : List Nat) :
    size ⟨e.rows.push r, free⟩ = e.size + r.live.toNat := by
  unfold size
  rw [← List.countP_eq_length_filter, ← List.countP_eq_length_filter, Array.toList_push,
    List.countP_append, List.countP_singleton]
  cases r.live <;> rfl

def Vacant (e : Entities) (row generation : Nat) : Prop :=
  e.rows[row]? = some ⟨generation, false⟩ ∨ e.rows[row]? = none ∧ generation = 0

namespace Vacant

variable {generation id : Nat}

theorem gone_iff (h : e.Vacant row generation) (hid : rowOf id = row) :
    e.RowHas EntityRow.Gone id ↔ generationOf id < generation := by
  obtain hrow | ⟨hnone, rfl⟩ := h
  · exact rowHas_iff (hid ▸ hrow)
  · simp [RowHas, hid, hnone]

theorem issued_iff (h : e.Vacant row generation) (hid : rowOf id = row) :
    e.RowHas EntityRow.Issued id ↔ generationOf id < generation := by
  obtain hrow | ⟨hnone, rfl⟩ := h
  · rw [rowHas_iff (hid ▸ hrow)]
    simp [EntityRow.Issued]
  · simp [RowHas, hid, hnone]

end Vacant

structure Comes (e e' : Entities) (id row generation : Nat) : Prop where
  id_eq : id = pack row generation
  vacant : e.Vacant row generation
  puts : e.Puts e' row ⟨generation, true⟩
  within : row ≤ e.rows.size
  free : e.free = row :: e'.free ∨ e.free = [] ∧ e'.free = []
  size : e'.size = e.size + 1

namespace Comes

variable {e' : Entities} {id generation : Nat}

theorem eq_id_iff (h : e.Comes e' id row generation) (hrows : e.rows.size ≤ 0xFFFFFFFF)
    (other : Nat) : other = id ↔ rowOf other = row ∧ generationOf other = generation :=
  h.id_eq ▸ eq_pack_iff (h.within.trans hrows)

/-- All generations given out in a vacant row came before the one that is next. -/
theorem not_issued (h : e.Comes e' id row generation) (hrows : e.rows.size ≤ 0xFFFFFFFF) :
    ¬ e.RowHas EntityRow.Issued id := by
  obtain ⟨hrow, hgeneration⟩ := (h.eq_id_iff hrows id).mp rfl
  rw [h.vacant.issued_iff hrow, hgeneration]
  exact lt_irrefl generation

theorem issued_iff (h : e.Comes e' id row generation) (hrows : e.rows.size ≤ 0xFFFFFFFF)
    (other : Nat) :
    e'.RowHas EntityRow.Issued other ↔ e.RowHas EntityRow.Issued other ∨ other = id := by
  rw [h.eq_id_iff hrows, h.puts.rowHas]
  split
  case isTrue heq =>
    rw [h.vacant.issued_iff heq]
    simp [EntityRow.Issued, heq]
  case isFalse hne => simp [hne]

theorem gone_iff (h : e.Comes e' id row generation) (other : Nat) :
    e'.RowHas EntityRow.Gone other ↔ e.RowHas EntityRow.Gone other := by
  rw [h.puts.rowHas]
  split
  case isTrue heq => exact (h.vacant.gone_iff heq).symm
  case isFalse => exact Iff.rfl

theorem free_sublist (h : e.Comes e' id row generation) : e'.free.Sublist e.free := by
  obtain hrest | ⟨-, hrest⟩ := h.free
  · rw [hrest]
    exact List.sublist_cons_self ..
  · rw [hrest]
    exact List.nil_sublist _

/-- The row is free no longer. -/
theorem mem_free_iff (h : e.Comes e' id row generation) (honce : e.free.Nodup) (other : Nat) :
    other ∈ e'.free ↔ other ∈ e.free ∧ other ≠ row := by
  obtain hrest | ⟨hnone, hrest⟩ := h.free
  · rw [hrest] at honce ⊢
    obtain ⟨hout, -⟩ := List.nodup_cons.mp honce
    rw [List.mem_cons, or_and_right, and_not_self_iff, false_or]
    exact (and_iff_left_of_imp fun hmem => ne_of_mem_of_not_mem hmem hout).symm
  · simp [hnone, hrest]

end Comes

/-- The row freed last is given out first, for the next generation that it was freed for. -/
theorem create_reused {free : List Nat} (hfree : e.free = row :: free)
    (hrow : e.rows[row]? = some r) :
    e.create = (pack row r.generation, ⟨e.rows.setIfInBounds row ⟨r.generation, true⟩, free⟩) := by
  simp only [create, hfree, hrow]
  rfl

theorem create_comes
    (hfree : ∀ row ∈ e.free, ∃ generation, e.rows[row]? = some ⟨generation, false⟩) :
    ∃ row generation, e.Comes e.create.2 e.create.1 row generation := by
  cases hrows : e.free with
  | nil =>
    have hcreate : e.create = (pack e.rows.size 0, ⟨e.rows.push ⟨0, true⟩, []⟩) := by
      simp only [create, hrows]
    rw [hcreate]
    exact ⟨e.rows.size, 0, rfl, Or.inr ⟨Array.getElem?_eq_none (le_refl _), rfl⟩, puts_push _ _,
      le_refl _, Or.inr ⟨hrows, rfl⟩, size_push _ _⟩
  | cons row free =>
    obtain ⟨generation, hrow⟩ := hfree row (hrows ▸ List.mem_cons_self)
    obtain ⟨hlt, -⟩ := Array.getElem?_eq_some_iff.mp hrow
    rw [create_reused hrows hrow]
    exact ⟨row, generation, rfl, Or.inl hrow, puts_set hrow _ _, hlt.le, Or.inl hrows,
      size_set hrow _ _⟩

theorem despawn_found {id : Nat} (hid : e.contains id = true) :
    e.despawn id = (true, ⟨e.rows.setIfInBounds (rowOf id)
      ⟨(generationOf id + 1) % 0x100000000, false⟩, rowOf id :: e.free⟩) := by
  rw [despawn, if_pos hid]

theorem despawn_missing {id : Nat} (hid : e.contains id = false) : e.despawn id = (false, e) := by
  rw [despawn, if_neg (Bool.eq_false_iff.mp hid)]

structure Goes (e e' : Entities) (id : Nat) : Prop where
  live : e.rows[rowOf id]? = some ⟨generationOf id, true⟩
  puts : e.Puts e' (rowOf id) ⟨generationOf id + 1, false⟩
  free : e'.free = rowOf id :: e.free
  size : e'.size + 1 = e.size

theorem despawn_goes {id : Nat} (hid : e.contains id = true) (hrows : e.rows.size ≤ 0xFFFFFFFF)
    (hnext : generationOf id + 1 < 2 ^ 32) : e.Goes (e.despawn id).2 id := by
  have hrow := (contains_iff_row hrows id).mp hid
  have hmod : (generationOf id + 1) % 0x100000000 = generationOf id + 1 := Nat.mod_eq_of_lt hnext
  rw [despawn_found hid, hmod]
  exact ⟨hrow, puts_set hrow _ _, rfl, size_set hrow _ _⟩

namespace Goes

variable {e' : Entities} {id : Nat}

theorem not_gone (h : e.Goes e' id) : ¬ e.RowHas EntityRow.Gone id := by
  rw [rowHas_iff h.live]
  exact lt_irrefl (generationOf id)

theorem not_free (h : e.Goes e' id) {generation : Nat} :
    e.rows[rowOf id]? ≠ some ⟨generation, false⟩ := by
  rw [h.live]
  rintro ⟨⟩

theorem issued_iff (h : e.Goes e' id) (other : Nat) :
    e'.RowHas EntityRow.Issued other ↔ e.RowHas EntityRow.Issued other := by
  rw [h.puts.rowHas]
  split
  case isTrue heq => rw [rowHas_iff (heq ▸ h.live), EntityRow.issued_removed]
  case isFalse => exact Iff.rfl

theorem gone_iff (h : e.Goes e' id) (other : Nat) :
    e'.RowHas EntityRow.Gone other ↔ e.RowHas EntityRow.Gone other ∨ other = id := by
  rw [eq_iff_halves, h.puts.rowHas]
  split
  case isTrue heq =>
    rw [rowHas_iff (heq ▸ h.live), EntityRow.gone_removed _ _ _ true]
    simp [heq]
  case isFalse hne => simp [hne]

end Goes

end Rows

/-! Histories. -/

/-- What can be done with entities. -/
inductive Step where
  | create
  | despawn (id : Nat)
  | contains (id : Nat)

namespace Step

def apply : Step → Entities → Entities
  | create, e => e.create.2
  | despawn id, e => (e.despawn id).2
  | contains _, e => e

def issued : Step → Entities → List Nat
  | create, e => [e.create.1]
  | _, _ => []

def removed : Step → Entities → List Nat
  | despawn id, e => if (e.despawn id).1 then [id] else []
  | _, _ => []

end Step

def run (e : Entities) (steps : List Step) : Entities := steps.foldl (fun e step => step.apply e) e

def yields (f : Step → Entities → List Nat) : Entities → List Step → List Nat
  | _, [] => []
  | e, step :: rest => f step e ++ yields f (step.apply e) rest

def issued (steps : List Step) : List Nat := yields Step.issued empty steps

def removed (steps : List Step) : List Nat := yields Step.removed empty steps

def removals (steps : List Step) (row : Nat) : Nat := ((removed steps).map rowOf).count row

theorem run_append (e : Entities) (first second : List Step) :
    e.run (first ++ second) = (e.run first).run second := List.foldl_append

theorem yields_append (f : Step → Entities → List Nat) (e : Entities) (first second : List Step) :
    yields f e (first ++ second) = yields f e first ++ yields f (e.run first) second := by
  induction first generalizing e with
  | nil => rfl
  | cons step first ih =>
    rw [List.cons_append, yields, yields, ih, List.append_assoc]
    rfl

theorem yields_concat (f : Step → Entities → List Nat) (steps : List Step) (step : Step) :
    yields f empty (steps ++ [step]) = yields f empty steps ++ f step (empty.run steps) := by
  rw [yields_append, yields, yields, List.append_nil]

theorem run_concat (steps : List Step) (step : Step) :
    empty.run (steps ++ [step]) = step.apply (empty.run steps) := run_append ..

/-- What the rows tell of the past: which ids were given out, and which of their entities are gone.
A generation counts the removals from its row, and the free rows are those where nobody lives. -/
structure Recounts (e : Entities) (given gone : List Nat) : Prop where
  generation {row : Nat} {r : EntityRow} :
    e.rows[row]? = some r → r.generation = (gone.map rowOf).count row
  free (row : Nat) : row ∈ e.free ↔ ∃ generation, e.rows[row]? = some ⟨generation, false⟩
  free_once : e.free.Nodup
  issued (id : Nat) : id ∈ given ↔ e.RowHas EntityRow.Issued id
  issued_once : given.Nodup
  removed (id : Nat) : id ∈ gone ↔ e.RowHas EntityRow.Gone id
  removed_once : gone.Nodup
  size : e.size + gone.length = given.length

namespace Recounts

variable {e : Entities} {given gone : List Nat}

theorem begin : Recounts empty [] [] where
  generation h := by cases h
  free row := by simp [empty]
  free_once := List.nodup_nil
  issued id := by simp [empty, RowHas]
  issued_once := List.nodup_nil
  removed id := by simp [empty, RowHas]
  removed_once := List.nodup_nil
  size := rfl

/-- The generation of a vacant row is the number of those that lived there. -/
theorem count_vacant (h : e.Recounts given gone) {row generation : Nat}
    (hvacant : e.Vacant row generation) : (gone.map rowOf).count row = generation := by
  obtain hrow | ⟨hnone, rfl⟩ := hvacant
  · exact (h.generation hrow).symm
  · refine List.count_eq_zero.mpr fun hmem => ?_
    obtain ⟨id, hgone, rfl⟩ := List.mem_map.mp hmem
    obtain ⟨r, hrow, -⟩ := (h.removed id).mp hgone
    rw [hnone] at hrow
    cases hrow

/-- A vacant row is given out for a generation that was not given out yet. -/
theorem create (h : e.Recounts given gone) (hrows : e.rows.size ≤ 0xFFFFFFFF) :
    e.create.2.Recounts (given ++ [e.create.1]) gone := by
  -- a row comes from the free ones with the generation it has now, or it is a new one
  obtain ⟨row, generation, hcomes⟩ := create_comes fun row => (h.free row).mp
  generalize e.create.2 = e', e.create.1 = id at hcomes
  have hnew : id ∉ given := fun hmem => hcomes.not_issued hrows ((h.issued id).mp hmem)
  constructor
  case generation =>
    intro i r hr
    rw [hcomes.puts] at hr
    split at hr
    case isTrue heq =>
      obtain rfl := Option.some.inj hr
      rw [heq, h.count_vacant hcomes.vacant]
    case isFalse => exact h.generation hr
  case free =>
    intro i
    rw [hcomes.mem_free_iff h.free_once, h.free, hcomes.puts]
    split
    case isTrue heq => simp [heq]
    case isFalse hne => exact and_iff_left hne
  case free_once => exact h.free_once.sublist hcomes.free_sublist
  case issued =>
    intro other
    rw [List.mem_append, List.mem_singleton, h.issued, hcomes.issued_iff hrows]
  case issued_once => exact List.concat_eq_append ▸ h.issued_once.concat hnew
  case removed => exact fun other => (h.removed other).trans (hcomes.gone_iff other).symm
  case removed_once => exact h.removed_once
  case size =>
    have hcount := h.size
    rw [hcomes.size, List.length_append, List.length_singleton]
    omega

/-- An entity that is removed leaves its row to the next generation, which has not come yet. -/
theorem remove (h : e.Recounts given gone) {id : Nat} (hid : e.contains id = true)
    (hrows : e.rows.size ≤ 0xFFFFFFFF) (hcount : (gone.map rowOf).count (rowOf id) + 1 < 2 ^ 32) :
    (e.despawn id).2.Recounts given (gone ++ [id]) := by
  -- the generation of a row counts the removals from it
  have hgeneration : generationOf id = (gone.map rowOf).count (rowOf id) :=
    h.generation ((contains_iff_row hrows id).mp hid)
  have hgoes : e.Goes (e.despawn id).2 id := despawn_goes hid hrows (hgeneration ▸ hcount)
  generalize (e.despawn id).2 = e' at hgoes
  have hcounted (i : Nat) : ((gone ++ [id]).map rowOf).count i =
      (gone.map rowOf).count i + if rowOf id = i then 1 else 0 := by
    rw [List.map_append, List.count_append, List.map_singleton, List.count_singleton]
    simp
  have hlast : id ∉ gone := fun hmem => hgoes.not_gone ((h.removed id).mp hmem)
  constructor
  case generation =>
    intro i r hr
    rw [hcounted]
    rw [hgoes.puts] at hr
    split at hr
    case isTrue heq =>
      obtain rfl := Option.some.inj hr
      rw [if_pos heq.symm, heq, ← hgeneration]
    case isFalse hne => rw [if_neg (Ne.symm hne), h.generation hr, Nat.add_zero]
  case free =>
    intro i
    rw [hgoes.free, List.mem_cons, h.free, hgoes.puts]
    split
    case isTrue heq => simp [heq]
    case isFalse hne => simp [hne]
  case free_once =>
    rw [hgoes.free]
    refine List.nodup_cons.mpr ⟨fun hmem => ?_, h.free_once⟩
    obtain ⟨generation, hdead⟩ := (h.free _).mp hmem
    exact hgoes.not_free hdead
  case issued => exact fun other => (h.issued other).trans (hgoes.issued_iff other).symm
  case issued_once => exact h.issued_once
  case removed =>
    intro other
    rw [List.mem_append, List.mem_singleton, h.removed, hgoes.gone_iff]
  case removed_once => exact List.concat_eq_append ▸ h.removed_once.concat hlast
  case size =>
    have hsize := hgoes.size
    have htotal := h.size
    rw [List.length_append, List.length_singleton]
    omega

end Recounts

/-! Whole runs. -/

theorem rows_apply (step : Step) (e : Entities) : e.rows.size ≤ (step.apply e).rows.size := by
  cases step with
  | create =>
    show e.rows.size ≤ e.create.2.rows.size
    unfold create
    split <;> simp
  | despawn id =>
    show e.rows.size ≤ (e.despawn id).2.rows.size
    unfold despawn
    split <;> simp
  | contains id => exact le_refl _

theorem removals_concat (steps : List Step) (step : Step) (row : Nat) :
    removals steps row ≤ removals (steps ++ [step]) row := by
  unfold removals removed
  rw [yields_concat, List.map_append, List.count_append]
  omega

/-- The bounds within which ids tell all entities apart: a row has its own number, and fewer
removals than generations. -/
structure Fits (steps : List Step) : Prop where
  rows : (empty.run steps).rows.size < 2 ^ 32 - 1
  removals (row : Nat) : removals steps row < 2 ^ 32

theorem Fits.front {steps : List Step} {step : Step} (h : Fits (steps ++ [step])) : Fits steps where
  rows := by
    have hgrow := rows_apply step (empty.run steps)
    rw [← run_concat] at hgrow
    exact hgrow.trans_lt h.rows
  removals row := (removals_concat steps step row).trans_lt (h.removals row)

theorem recounts_run {steps : List Step} (h : Fits steps) :
    (empty.run steps).Recounts (issued steps) (removed steps) := by
  -- from the last step back, since each step says what it did to the entities of that moment
  induction steps using List.reverseRecOn with
  | nil => exact .begin
  | append_singleton steps step ih =>
    have hbefore := ih h.front
    have hrows : (empty.run steps).rows.size ≤ 0xFFFFFFFF := h.front.rows.le.trans (by decide)
    have hremovals := h.removals
    unfold issued removed removals at *
    simp only [removed, yields_concat, run_concat] at hremovals ⊢
    cases step with
    | create =>
      simp only [Step.issued, Step.removed, Step.apply, List.append_nil]
      exact hbefore.create hrows
    | despawn id =>
      simp only [Step.issued, Step.removed, Step.apply, List.append_nil] at hremovals ⊢
      cases hid : (empty.run steps).contains id with
      | true =>
        have hfound := congrArg Prod.fst (despawn_found hid)
        rw [hfound, if_pos rfl] at hremovals ⊢
        refine hbefore.remove hid hrows ?_
        have hrow := hremovals (rowOf id)
        simpa using hrow
      | false =>
        rw [despawn_missing hid, if_neg Bool.false_ne_true, List.append_nil]
        exact hbefore
    | contains id =>
      simp only [Step.issued, Step.removed, Step.apply, List.append_nil]
      exact hbefore

theorem contains_despawn {e : Entities} (hrows : e.rows.size ≤ 0xFFFFFFFF) (id other : Nat) :
    (e.despawn id).2.contains other = (e.contains other && decide (other ≠ id)) := by
  cases hid : e.contains id with
  | false =>
    -- nothing is removed, and the id that is not there differs from all that are
    rw [despawn_missing hid]
    by_cases heq : other = id
    · rw [heq, hid, Bool.false_and]
    · rw [decide_eq_true heq, Bool.and_true]
  | true =>
    have hrow := (contains_iff_row hrows id).mp hid
    have hsize : (e.despawn id).2.rows.size ≤ 0xFFFFFFFF := by
      rw [despawn_found hid]
      simpa using hrows
    rw [Bool.eq_iff_iff, contains_iff_row hsize, Bool.and_eq_true, contains_iff_row hrows,
      decide_eq_true_eq, ne_eq, eq_iff_halves, despawn_found hid, puts_set hrow]
    by_cases heq : rowOf other = rowOf id
    · rw [if_pos heq, heq, hrow]
      simp [eq_comm]
    · simp [heq]

theorem removed_subset (before after : List Step) : removed before ⊆ removed (before ++ after) := by
  unfold removed
  rw [yields_append]
  exact List.subset_append_left ..

/-- What ids are good for after some steps. -/
structure LivesOnce (steps : List Step) : Prop where
  /-- No id is given out twice. -/
  distinct : (issued steps).Nodup
  /-- The ids of live entities are those given out whose entities were not removed since. -/
  contained (id : Nat) :
    (empty.run steps).contains id = true ↔ id ∈ issued steps ∧ id ∉ removed steps
  /-- Removing succeeds where there is something to remove, and else does nothing. -/
  despawned (id : Nat) : ((empty.run steps).despawn id).1 = (empty.run steps).contains id
  kept (id : Nat) : (empty.run steps).contains id = false →
    ((empty.run steps).despawn id).2 = empty.run steps
  /-- It removes one entity and no other. -/
  others (id other : Nat) : ((empty.run steps).despawn id).2.contains other =
    ((empty.run steps).contains other && decide (other ≠ id))
  counted : (empty.run steps).size + (removed steps).length = (issued steps).length
  /-- An id whose entity was removed stays without one, although the row is given out again. -/
  final (before after : List Step) : steps = before ++ after →
    ∀ id ∈ removed before, (empty.run steps).contains id = false
  reused (id : Nat) : (empty.run steps).contains id = true →
    rowOf ((empty.run steps).despawn id).2.create.1 = rowOf id

/-- Ids stand for one entity each, at any time, whatever is asked for. -/
theorem ids_live_once (steps : List Step) (hfits : Fits steps) : LivesOnce steps := by
  have hrows : (empty.run steps).rows.size ≤ 0xFFFFFFFF := hfits.rows.le.trans (by decide)
  have hpast : (empty.run steps).Recounts (issued steps) (removed steps) := recounts_run hfits
  have hcontained (id : Nat) : (empty.run steps).contains id = true ↔
      id ∈ issued steps ∧ id ∉ removed steps := by
    rw [contains_iff_issued hrows, hpast.issued, hpast.removed]
  refine ⟨hpast.issued_once, hcontained, fun id => ?_, fun id hid => ?_, contains_despawn hrows,
    hpast.size, ?_, fun id hid => ?_⟩
  · cases hid : (empty.run steps).contains id with
    | true => rw [despawn_found hid]
    | false => rw [despawn_missing hid]
  · rw [despawn_missing hid]
  · rintro before after rfl id hid
    rw [Bool.eq_false_iff, ne_eq, hcontained, not_and, not_not]
    intro _
    exact removed_subset before after hid
  · have hrow := (contains_iff_row hrows id).mp hid
    have hfreed := (puts_set hrow ⟨(generationOf id + 1) % 0x100000000, false⟩
      (rowOf id :: (empty.run steps).free) (rowOf id)).trans (if_pos rfl)
    rw [despawn_found hid, create_reused rfl hfreed, rowOf_pack (rowOf_le id)]

/-- The row of the first entity is given out again, under another id than the one held before. -/
theorem held_id_stays_invalid :
    let steps : List Step :=
      [.create, .create, .despawn 0xFFFFFFFF, .contains 0, .despawn 0xFFFFFFFF, .create]
    issued steps = [0xFFFFFFFF, 0xFFFFFFFE, 0x1FFFFFFFF] ∧
      (empty.run steps).contains 0xFFFFFFFF = false ∧
      (empty.run steps).contains 0x1FFFFFFFF = true ∧ (empty.run steps).size = 2 := by
  intro steps
  have hremoved : removed steps = [0xFFFFFFFF] := by decide
  have hissued : issued steps = [0xFFFFFFFF, 0xFFFFFFFE, 0x1FFFFFFFF] := by decide
  have hfits : Fits steps := by
    refine ⟨by decide, fun row => ?_⟩
    have hcount := List.count_le_length (a := row) (l := (removed steps).map rowOf)
    rw [List.length_map, hremoved] at hcount
    exact hcount.trans_lt (by decide)
  have hlaw := ids_live_once steps hfits
  refine ⟨hissued, ?_, ?_, ?_⟩
  · refine hlaw.final (steps.take 3) (steps.drop 3) rfl _ ?_
    decide
  · rw [hlaw.contained, hissued, hremoved]
    decide
  · have hcount := hlaw.counted
    rw [hissued, hremoved] at hcount
    exact Nat.succ.inj hcount

end Entities

end ScenarioHost
