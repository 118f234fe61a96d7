import Mathlib
import ScenarioHost.Proofs.SectorGrid

/-!
Labels of sectors as people write them. A label can spell its letters in either case and its column
with blanks, a sign, zeros or more text; naming the position that it is read as gives the one
spelling that sector names have.
-/
namespace ScenarioHost.Sector

abbrev Letter := {c : Char // c.isAlpha = true}

inductive RowPart where
  | single (a : Letter)
  | pair (a b : Letter)

/-- A label whose column is near enough for its edge to be an exact number. -/
structure Label where
  letters : RowPart
  number : Written
  near : (number.value - 5).natAbs ≤ 26843

namespace RowPart

def chars : RowPart → List Char
  | single a => [a.val]
  | pair a b => [a.val, b.val]

def normal : RowPart → List Char
  | single a => [a.val.toUpper]
  | pair a b => [a.val, if a.val.isLower then b.val.toLower else b.val.toUpper]

def row : RowPart → ℤ
  | single a => a.val.toUpper.toNat - 65
  | pair a b =>
    if a.val.isLower then -((122 - a.val.toNat) * 26 + (122 - b.val.toLower.toNat)) - 1
    else (a.val.toNat - 65) * 26 + (b.val.toUpper.toNat - 65) + 26

end RowPart

namespace Label

def text (l : Label) : String := String.ofList (l.letters.chars ++ l.number.text)

def canonical (l : Label) : String := String.ofList l.letters.normal ++ toString l.number.value

def sector (l : Label) : Sector := ⟨l.letters.row, l.number.value⟩

end Label

def nameAt (position : Single × Single) : String := (containing position.1 position.2).name

/-! Letters and their cases. -/

theorem letter_codes (a : Letter) : (97 ≤ a.val.toNat ∧ a.val.toNat ≤ 122) ∨
    (65 ≤ a.val.toNat ∧ a.val.toNat ≤ 90) := by
  have ha : a.val.isUpper = true ∨ a.val.isLower = true := Bool.or_eq_true_iff.mp a.property
  rw [is_upper_iff, is_lower_iff] at ha
  exact ha.symm

theorem is_letter (a : Letter) : isLetter a.val = true := (is_letter_iff a.val).mpr (letter_codes a)

theorem small_iff (a : Letter) : 'a' ≤ a.val ↔ a.val.isLower = true := by
  have hcodes := letter_codes a
  have hbase : 'a'.toNat = 97 := rfl
  rw [char_le_iff, is_lower_iff]
  omega

theorem toNat_toLower (c : Char) :
    c.toLower.toNat = if 65 ≤ c.toNat ∧ c.toNat ≤ 90 then c.toNat + 32 else c.toNat := by
  have hstep : ('a'.val - 'A'.val).toNat = 32 := rfl
  have hcode : c.val.toNat = c.toNat := rfl
  unfold Char.toLower
  split
  case isTrue h =>
    have hcapital := (is_upper_iff c).mp (decide_eq_true h)
    rw [if_pos hcapital]
    change (c.val + ('a'.val - 'A'.val)).toNat = c.toNat + 32
    rw [UInt32.toNat_add, hstep, hcode]
    omega
  case isFalse h => rw [if_neg (mt (is_upper_iff c).mpr (mt of_decide_eq_true h))]

theorem toNat_toUpper (c : Char) :
    c.toUpper.toNat = if 97 ≤ c.toNat ∧ c.toNat ≤ 122 then c.toNat - 32 else c.toNat := by
  -- the way up is negative, and comes round the end of 32 bits
  have hstep : ('A'.val - 'a'.val).toNat = 2 ^ 32 - 32 := rfl
  have hcode : c.val.toNat = c.toNat := rfl
  have hrange : 'a'.val ≤ c.val ∧ c.val ≤ 'z'.val ↔ 97 ≤ c.toNat ∧ c.toNat ≤ 122 := by
    rw [UInt32.le_iff_toNat_le, UInt32.le_iff_toNat_le]
    exact Iff.rfl
  unfold Char.toUpper
  split
  case isTrue h =>
    have hsmall := hrange.mp h
    rw [if_pos hsmall]
    change (c.val + ('A'.val - 'a'.val)).toNat = c.toNat - 32
    rw [UInt32.toNat_add, hstep, hcode]
    omega
  case isFalse h => rw [if_neg (mt hrange.mpr h)]

/-- Both ways to take a letter to the other case agree. -/
theorem lowerAscii_eq (c : Char) : lowerAscii c = c.toLower := by
  rw [← Char.toNat_inj, toNat_toLower]
  simp only [lowerAscii, char_le_iff]
  change (if 65 ≤ c.toNat ∧ c.toNat ≤ 90 then _ else _ : Char).toNat = _
  split
  case isTrue h => rw [toNat_char_ofNat (by omega)]
  case isFalse => rfl

theorem upperAscii_eq (c : Char) : upperAscii c = c.toUpper := by
  rw [← Char.toNat_inj, toNat_toUpper]
  simp only [upperAscii, char_le_iff]
  change (if 97 ≤ c.toNat ∧ c.toNat ≤ 122 then _ else _ : Char).toNat = _
  split
  case isTrue h => rw [toNat_char_ofNat (by omega)]
  case isFalse => rfl

theorem lower_codes (a : Letter) : 97 ≤ a.val.toLower.toNat ∧ a.val.toLower.toNat ≤ 122 := by
  have hcodes := letter_codes a
  rw [toNat_toLower]
  split <;> omega

theorem upper_codes (a : Letter) : 65 ≤ a.val.toUpper.toNat ∧ a.val.toUpper.toNat ≤ 90 := by
  have hcodes := letter_codes a
  rw [toNat_toUpper]
  split <;> omega

/-- A letter is known by its place before `z` or behind `A`. -/
theorem letter_small {c : Char} {k : ℤ} (hc : 97 ≤ c.toNat ∧ c.toNat ≤ 122)
    (hk : k = 122 - c.toNat) : letter 'z' (-k) = c := by
  have hcode := toNat_small (k := k) (by omega) (by omega)
  rw [← Char.toNat_inj]
  omega

theorem letter_capital {c : Char} {k : ℤ} (hc : 65 ≤ c.toNat ∧ c.toNat ≤ 90)
    (hk : k = c.toNat - 65) : letter 'A' k = c := by
  have hcode := toNat_capital (k := k) (by omega) (by omega)
  rw [← Char.toNat_inj]
  omega

namespace RowPart

/-- The letters of a label are split off. -/
theorem split_chars (p : RowPart) {rest : List Char} (hrest : Tail rest) :
    splitRow (p.chars ++ rest) = some (p.row, rest) := by
  cases p with
  | single a =>
    -- what follows begins with no letter, so that the only one stands for the row
    obtain ⟨c, tail, rfl, hc⟩ := hrest
    change splitRow (a.val :: c :: tail) = _
    rw [splitRow, hc, Bool.and_false, if_neg Bool.false_ne_true, upperAscii_eq]
    rfl
  | pair a b =>
    change splitRow (a.val :: b.val :: rest) = _
    rw [splitRow, is_letter a, is_letter b, Bool.and_self, if_pos rfl, lowerAscii_eq, upperAscii_eq]
    unfold row
    dsimp only
    by_cases hcase : a.val.isLower = true
    · rw [if_pos ((small_iff a).mpr hcase), if_pos hcase]
    · rw [if_neg (mt (small_iff a).mp hcase), if_neg hcase]

theorem row_bounds (p : RowPart) : minRow ≤ p.row ∧ p.row ≤ maxRow := by
  have hmin : minRow = -676 := rfl
  have hmax : maxRow = 701 := rfl
  cases p with
  | single a =>
    have ha := upper_codes a
    unfold row
    dsimp only
    omega
  | pair a b =>
    have ha := letter_codes a
    have hlower := lower_codes b
    have hupper := upper_codes b
    unfold row
    dsimp only
    by_cases hcase : a.val.isLower = true
    · have hsmall := (is_lower_iff a.val).mp hcase
      rw [if_pos hcase]
      omega
    · have hcapital := mt (is_lower_iff a.val).mpr hcase
      rw [if_neg hcase]
      omega

/-- Letters in their normal case are those of their row's name. -/
theorem rowName_row (p : RowPart) : rowName p.row = p.normal := by
  cases p with
  | single a =>
    have ha := upper_codes a
    unfold row normal rowName
    dsimp only
    rw [if_neg (by omega), if_pos (by omega), letter_capital ha rfl]
  | pair a b =>
    have ha := letter_codes a
    have hlower := lower_codes b
    have hupper := upper_codes b
    unfold row normal
    dsimp only
    by_cases hcase : a.val.isLower = true
    · have hsmall := (is_lower_iff a.val).mp hcase
      rw [if_pos hcase, if_pos hcase, rowName, if_pos (by omega), letter_small hsmall (by omega),
        letter_small hlower (by omega)]
    · have hcapital := mt (is_lower_iff a.val).mpr hcase
      rw [if_neg hcase, if_neg hcase, rowName, if_neg (by omega), if_neg (by omega),
        letter_capital (ha.resolve_left hcapital) (by omega), letter_capital hupper (by omega)]

end RowPart

namespace Label

theorem name_sector (l : Label) : l.sector.name = l.canonical := by
  unfold name canonical sector
  rw [RowPart.rowName_row]

theorem column_bounds (l : Label) : -0x80000000 ≤ l.number.value ∧ l.number.value < 0x80000000 := by
  have hnear := l.near
  omega

/-- A label is read as the corner of its sector. -/
theorem position_text (l : Label) : position l.text = l.sector.corner := by
  have hparse : parse? l.text = some l.sector := by
    unfold parse? text
    rw [String.toList_ofList, l.letters.split_chars (tail_written l.number)]
    dsimp only
    rw [leading_number_text, if_pos l.column_bounds]
    rfl
  unfold position
  rw [hparse]

theorem position_canonical (l : Label) : position l.canonical = l.sector.corner := by
  obtain ⟨hlow, hhigh⟩ := l.letters.row_bounds
  rw [← name_sector, position_name hlow hhigh]
  exact if_pos l.column_bounds

theorem nameAt_corner (l : Label) : nameAt l.sector.corner = l.canonical := by
  obtain ⟨hlow, hhigh⟩ := l.letters.row_bounds
  unfold nameAt
  rw [containing_corner hlow hhigh l.near, name_sector]

end Label

/-- The position that a label is read as has the label's spelling for a name. So names are kept, and
labels share a position just if they are spellings of one name. -/
theorem labels_are_normalized (l : Label) :
    nameAt (position l.text) = l.canonical ∧ nameAt (position l.canonical) = l.canonical ∧
      ∀ l' : Label, position l.text = position l'.text ↔ l.canonical = l'.canonical := by
  refine ⟨?_, ?_, ?_⟩
  · rw [l.position_text, l.nameAt_corner]
  · rw [l.position_canonical, l.nameAt_corner]
  · intro l'
    rw [l.position_text, l'.position_text]
    constructor
    · intro hcorner
      rw [← l.nameAt_corner, hcorner, l'.nameAt_corner]
    · intro hcanonical
      have hname : l.sector.name = l'.sector.name := by
        rw [l.name_sector, l'.name_sector, hcanonical]
      rw [name_injective l.letters.row_bounds l'.letters.row_bounds hname]

def Label.untidy : Label where
  letters := .pair ⟨'z', by decide⟩ ⟨'A', by decide⟩
  number :=
    { blanks := [' '], sign := .plus, digits := ['0', '7'], rest := [' ', 'n', 'm']
      blank := List.forall_mem_singleton.mpr rfl
      digit := List.forall_mem_cons.mpr ⟨rfl, List.forall_mem_singleton.mpr rfl⟩
      nonempty := List.cons_ne_nil _ _
      ends := by
        rintro _ ⟨⟩
        rfl }
  near := by decide

theorem untidy_label_is_normalized :
    Label.untidy.text = "zA +07 nm" ∧ nameAt (position "zA +07 nm") = "za7" ∧
      nameAt (position "za7") = "za7" := by
  have htext : Label.untidy.text = "zA +07 nm" := by decide
  have hcanonical : Label.untidy.canonical = "za7" := by decide
  obtain ⟨hname, hkept, _⟩ := labels_are_normalized Label.untidy
  rw [htext, hcanonical] at hname
  rw [hcanonical] at hkept
  exact ⟨htext, hname, hkept⟩

end ScenarioHost.Sector
