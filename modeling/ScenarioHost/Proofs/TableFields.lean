import Mathlib
import ScenarioHost.Proofs.Bindings

/-!
Fields of tables. Where a value is kept depends on its key and on what else a table holds, and may
change when another key gets a value. What a table gives for a key does not depend on that: it is
what was set last.
-/
namespace ScenarioHost.Lua

namespace Value

theorem same_symm {a b : Value} (h : a.same b = true) : b.same a = true := by
  cases a <;> cases b <;> simp_all [same, BEq.comm]

theorem same_trans {a b c : Value} (first : a.same b = true) (second : b.same c = true) :
    a.same c = true := by
  cases a <;> cases b <;> cases c <;> simp_all [same]
  exact PartialEquivBEq.trans first second

/-- Equal keys are equal to the same values. -/
theorem same_congr {a b : Value} (h : a.same b = true) (v : Value) : v.same a = v.same b := by
  rw [Bool.eq_iff_iff]
  exact ⟨fun hv => same_trans hv h, fun hv => same_trans hv (same_symm h)⟩

end Value

namespace Table

theorem place_eq_some_iff {x : Float} {n : Nat} :
    place? x = some n ↔ x.toUInt64.toNat = n + 1 ∧ (x.toUInt64.toFloat == x) = true := by
  have hzero : x.toUInt64 ≠ 0 ↔ x.toUInt64.toNat ≠ 0 := not_congr UInt64.toNat_inj.symm
  have hplace : place? x = if x.toUInt64.toNat ≠ 0 ∧ (x.toUInt64.toFloat == x) = true then
      some (x.toUInt64.toNat - 1) else none := by
    unfold place?
    simp only [Bool.and_eq_true, decide_eq_true_iff, hzero]
  rw [hplace]
  split
  · rename_i hn
    rw [Option.some_inj]
    constructor
    · intro h
      exact ⟨by omega, hn.2⟩
    · intro h
      omega
  · rename_i hn
    constructor
    · intro h
      cases h
    · intro h
      exact absurd ⟨by omega, h.2⟩ hn

/-- Only one number names a place. -/
theorem place_inj {x y : Float} {n : Nat} (hx : place? x = some n) (hy : place? y = some n) :
    (x == y) = true := by
  obtain ⟨hxn, hxx⟩ := place_eq_some_iff.mp hx
  obtain ⟨hyn, hyy⟩ := place_eq_some_iff.mp hy
  have hplaces : x.toUInt64 = y.toUInt64 := UInt64.toNat_inj.mp (hxn.trans hyn.symm)
  rw [hplaces] at hxx
  exact PartialEquivBEq.trans (PartialEquivBEq.symm hxx) hyy

/-- The two zeros are one key, and no place. -/
theorem place_congr {x y : Float} (h : (x == y) = true) : place? x = place? y := by
  obtain ⟨-, -, rfl | ⟨rfl, rfl⟩ | ⟨rfl, rfl⟩⟩ := Float.beq_iff_ne_nan_and_eq.mp h
  · rfl
  · decide
  · decide

def placeOf : Value → Option Nat
  | .number x => place? x
  | _ => none

theorem placeOf_congr {a b : Value} (h : a.same b = true) : placeOf a = placeOf b := by
  cases a <;> cases b <;> first | rfl | cases h | exact place_congr h

theorem placeOf_inj {a b : Value} {n : Nat} (ha : placeOf a = some n) (hb : placeOf b = some n) :
    a.same b = true := by
  cases a <;> cases b <;> first | cases ha | cases hb | exact place_inj ha hb

variable (t : Table)

def itemOf (key : Value) : Option Value := (placeOf key).bind fun n => t.items[n]?

/-- Items go before entries. -/
theorem get_eq (key : Value) : t.get key = (t.itemOf key).getD (t.entry key) := by
  cases key with
  | number x =>
    unfold get itemOf placeOf
    dsimp only
    cases place? x with
    | none => rfl
    | some n =>
      dsimp only [Option.bind_some]
      split
      · rename_i hn
        rw [Array.getElem?_eq_getElem hn, Option.getD_some]
      · rename_i hn
        rw [Array.getElem?_eq_none (Nat.le_of_not_lt hn), Option.getD_none]
  | _ => rfl

/-- A field that is not nil has a place or an entry of its own. -/
theorem entry_setEntry_eq (key v key' : Value) :
    (t.setEntry key v).entry key' = if key.same key' then v else t.entry key' := by
  refine t.entry_setEntry key v Value.same_congr fun hdiffers w hw => ?_
  rw [Bool.eq_false_iff] at hdiffers ⊢
  intro hw'
  exact hdiffers (Value.same_trans (Value.same_symm hw) hw')

/-- There is no item yet at the place where the row ends. -/
theorem itemOf_next {key : Value} (hkey : placeOf key = some t.items.size) :
    t.itemOf key = none := by
  rw [itemOf, hkey]
  exact Array.getElem?_eq_none (Nat.le_refl _)

/-- Where there is no item for a key, its entry counts. -/
theorem get_setEntry {key : Value} (hkey : t.itemOf key = none) (v key' : Value) :
    (t.setEntry key v).get key' = if key.same key' then v else t.get key' := by
  have hitem : (t.setEntry key v).itemOf key' = t.itemOf key' := by
    rw [itemOf, itemOf, items_setEntry]
  rw [get_eq, get_eq, hitem, entry_setEntry_eq]
  split
  · rename_i hsame
    have hplace : t.itemOf key' = none := by rwa [itemOf, ← placeOf_congr hsame]
    rw [hplace, Option.getD_none]
  · rfl

/-- A row that grows by the item of a key: all other fields stay. -/
theorem get_push {key : Value} (hkey : placeOf key = some t.items.size) (v key' : Value) :
    ({ t.setEntry key .nil with items := t.items.push v } : Table).get key' =
      if key.same key' then v else t.get key' := by
  have hentry : ({ t.setEntry key .nil with items := t.items.push v } : Table).entry key' =
      if key.same key' then .nil else t.entry key' := t.entry_setEntry_eq key .nil key'
  rw [get_eq, get_eq, hentry, itemOf, itemOf]
  cases hsame : key.same key' with
  | true =>
    rw [← placeOf_congr hsame, hkey]
    simp
  | false =>
    cases hplace : placeOf key' with
    | none => rfl
    | some n =>
      have hn : n ≠ t.items.size := by
        rintro rfl
        rw [placeOf_inj hkey hplace] at hsame
        cases hsame
      simp [Array.getElem?_push, hn]

/-- Values that move from entries to items are found as before. -/
theorem get_absorb (fuel : Nat) (key : Value) : (absorb fuel t).get key = t.get key := by
  induction fuel generalizing t with
  | zero => rfl
  | succ fuel ih =>
    unfold absorb
    dsimp only
    split
    · rename_i hplace
      have hkey : placeOf (.number (Double.ofNat (t.items.size + 1))) = some t.items.size := hplace
      split
      · rfl
      · rw [ih, get_push t hkey]
        split
        · rename_i hsame
          -- no item stood at the place of the key, so what moved is what its entry held
          have hitem : t.itemOf key = none := by
            apply t.itemOf_next
            rw [← placeOf_congr hsame, hkey]
          have hentry : t.entry (.number (Double.ofNat (t.items.size + 1))) = t.entry key := by
            unfold entry
            rw [funext fun e : Value × Value => Value.same_congr hsame e.1]
          rw [get_eq, hitem, Option.getD_none, hentry]
        · rfl
    · rfl

@[simp] theorem metatable_absorb (fuel : Nat) : (absorb fuel t).metatable = t.metatable := by
  induction fuel generalizing t with
  | zero => rfl
  | succ fuel ih =>
    rw [absorb]
    split
    · split
      · rfl
      · exact (ih _).trans (t.metatable_setEntry ..)
    · rfl

/-! A value goes to its place in the row, at its end, or among the entries. -/

variable {t} {key : Value} (v : Value)

theorem set_item {n : Nat} (hkey : placeOf key = some n) (hn : n < t.items.size) :
    t.set key v = { t with items := t.items.setIfInBounds n v } := by
  cases key with
  | number x =>
    have hplace : place? x = some n := hkey
    simp only [set, hplace, if_pos hn]
  | _ => cases hkey

theorem set_next {v : Value} (hkey : placeOf key = some t.items.size) (hv : v.isNil = false) :
    t.set key v = absorb (t.setEntry key .nil).entries.size
      { t.setEntry key .nil with items := t.items.push v } := by
  cases key with
  | number x =>
    have hplace : place? x = some t.items.size := hkey
    -- there is nothing to clear in a table without entries
    have hclear : (if t.entries.isEmpty then t else t.setEntry (.number x) .nil) =
        t.setEntry (.number x) .nil := by
      split
      · rename_i hempty
        have hentries : t.entries = #[] := Array.isEmpty_iff.mp hempty
        simp [setEntry, entryIndex?, hentries, Value.isNil]
      · rfl
    simp only [set, hplace, Nat.lt_irrefl, if_false, hv, Bool.not_false, and_self, if_true, hclear,
      items_setEntry]
  | _ => cases hkey

theorem set_entry (hitem : t.itemOf key = none)
    (hkey : placeOf key = some t.items.size → v.isNil = true) :
    t.set key v = t.setEntry key v := by
  cases key with
  | number x =>
    cases hplace : place? x with
    | none => simp only [set, hplace]
    | some n =>
      have hitems : t.items[n]? = none := by
        change (place? x).bind _ = none at hitem
        rwa [hplace] at hitem
      have hn : ¬ n < t.items.size := Nat.not_lt.mpr (Array.getElem?_eq_none_iff.mp hitems)
      have hnext : ¬ (n = t.items.size ∧ (!v.isNil) = true) := by
        rintro ⟨rfl, hv⟩
        rw [hkey hplace] at hv
        cases hv
      simp only [set, hplace, if_neg hn, if_neg hnext]
  | _ => rfl

/-- A key has an item, or the next item would be its, or it has neither. -/
theorem place_cases (t : Table) (key : Value) :
    (∃ n, placeOf key = some n ∧ n < t.items.size) ∨ placeOf key = some t.items.size ∨
      (t.itemOf key = none ∧ placeOf key ≠ some t.items.size) := by
  unfold itemOf
  cases hplace : placeOf key with
  | none => exact .inr (.inr ⟨rfl, nofun⟩)
  | some n =>
    rcases Nat.lt_trichotomy n t.items.size with hn | rfl | hn
    · exact .inl ⟨n, rfl, hn⟩
    · exact .inr (.inl rfl)
    · refine .inr (.inr ⟨Array.getElem?_eq_none (Nat.le_of_lt hn), ?_⟩)
      rw [Ne, Option.some_inj]
      exact Nat.ne_of_gt hn

variable (t key)

/-- A table gives for a key what was set last, and setting it changes no other field. -/
theorem get_set (key' : Value) :
    (t.set key v).get key' = if key.same key' then v else t.get key' := by
  rcases t.place_cases key with ⟨n, hkey, hn⟩ | hkey | ⟨hitem, hkey⟩
  · rw [set_item v hkey hn, get_eq, get_eq, itemOf, itemOf]
    cases hsame : key.same key' with
    | true =>
      rw [← placeOf_congr hsame, hkey]
      simp [Array.getElem?_setIfInBounds, hn]
    | false =>
      cases hplace : placeOf key' with
      | none => rfl
      | some m =>
        have hm : n ≠ m := by
          rintro rfl
          rw [placeOf_inj hkey hplace] at hsame
          cases hsame
        rw [Option.bind_some, Option.bind_some, Array.getElem?_setIfInBounds_ne hm]
        rfl
  · -- the row grows, unless nil is set: that needs no place in it
    cases hv : v.isNil with
    | true =>
      rw [set_entry v (t.itemOf_next hkey) fun _ => hv, t.get_setEntry (t.itemOf_next hkey)]
    | false => rw [set_next hkey hv, get_absorb, t.get_push hkey]
  · rw [set_entry v hitem fun h => absurd h hkey, t.get_setEntry hitem]

@[simp] theorem get_empty : Table.empty.get key = .nil := by
  have hitem : Table.empty.itemOf key = none := by
    unfold itemOf
    cases placeOf key <;> rfl
  rw [get_eq, hitem]
  rfl

theorem metatable_set : (t.set key v).metatable = t.metatable := by
  rcases t.place_cases key with ⟨n, hkey, hn⟩ | hkey | ⟨hitem, hkey⟩
  · rw [set_item v hkey hn]
  · cases hv : v.isNil with
    | true => rw [set_entry v (t.itemOf_next hkey) fun _ => hv, metatable_setEntry]
    | false => rw [set_next hkey hv, metatable_absorb, metatable_setEntry]
  · rw [set_entry v hitem fun h => absurd h hkey, metatable_setEntry]

end Table

namespace Heap

variable (h : Heap) (t x : TableId)

@[simp] theorem size_rawSet (key v : Value) : (h.rawSet t key v).tables.size = h.tables.size :=
  Array.size_modify

@[simp] theorem size_setMetatable (m : Option TableId) :
    (h.setMetatable t m).tables.size = h.tables.size := Array.size_modify

@[simp] theorem size_addTable (table : Table) :
    (h.addTable table).tables.size = h.tables.size + 1 := Array.size_push ..

@[simp] theorem size_addFunction (f : Function) :
    (h.addFunction f).tables.size = h.tables.size := rfl

@[simp] theorem rawGet_addFunction (f : Function) (key : Value) :
    (h.addFunction f).rawGet x key = h.rawGet x key := rfl

/-- A field of a table that is there is what was set last. -/
theorem rawGet_rawSet (ht : t.index < h.tables.size) (key v key' : Value) :
    (h.rawSet t key v).rawGet x key' =
      if x = t ∧ key.same key' = true then v else h.rawGet x key' := by
  by_cases hx : x = t
  · subst hx
    rw [rawGet, table_rawSet, if_pos ht, Table.get_set, rawGet]
    simp only [true_and]
  · rw [rawGet, h.table_rawSet_other t v hx, if_neg fun hboth => hx hboth.1, rawGet]

theorem metatable_rawSet (key v : Value) :
    ((h.rawSet t key v).table x).metatable = (h.table x).metatable := by
  by_cases hx : x = t
  · subst hx
    rw [table_rawSet]
    split
    · exact (h.table x).metatable_set key v
    · rfl
  · rw [h.table_rawSet_other t v hx]

theorem table_setMetatable (m : Option TableId) : (h.setMetatable t m).table x =
    if x = t ∧ t.index < h.tables.size then { h.table x with metatable := m } else h.table x := by
  unfold setMetatable table
  simp only [Array.getD_eq_getD_getElem?, Array.getElem?_modify]
  by_cases hx : x = t
  · subst hx
    by_cases hsize : x.index < h.tables.size
    · simp [hsize]
    · simp [hsize]
  · have hindex : t.index ≠ x.index := fun heq => hx (congrArg TableId.mk heq.symm)
    simp [hx, hindex]

@[simp] theorem rawGet_setMetatable (m : Option TableId) (key : Value) :
    (h.setMetatable t m).rawGet x key = h.rawGet x key := by
  rw [rawGet, table_setMetatable, rawGet]
  split <;> rfl

theorem table_addTable (table : Table) :
    (h.addTable table).table x = if x = h.nextTable then table else h.table x := by
  unfold addTable Heap.table nextTable
  simp only [Array.getD_eq_getD_getElem?, Array.getElem?_push]
  by_cases hx : x.index = h.tables.size
  · have heq : x = ⟨h.tables.size⟩ := congrArg TableId.mk hx
    simp [heq]
  · have hne : x ≠ ⟨h.tables.size⟩ := fun heq => hx (congrArg TableId.index heq)
    simp [hx, hne]

/-- There is nothing in a table that is not there. -/
theorem table_of_absent (ht : h.tables.size ≤ t.index) : h.table t = .empty := by
  unfold table
  rw [Array.getD_eq_getD_getElem?, Array.getElem?_eq_none ht]
  rfl

/-- So one that comes to be there and is empty makes no difference. -/
@[simp] theorem table_addTable_empty : (h.addTable .empty).table x = h.table x := by
  rw [table_addTable]
  split
  · rename_i hx
    subst hx
    exact (h.table_of_absent h.nextTable (Nat.le_refl _)).symm
  · rfl

end Heap

end ScenarioHost.Lua
