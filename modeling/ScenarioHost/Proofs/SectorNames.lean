import Mathlib
import ScenarioHost.Sector
import ScenarioHost.Proofs.LeadingNumbers
import ScenarioHost.Proofs.Texts

/-!
Names of sectors. The letters of a name spell the row and the number after them is the column, so
no two sectors share a name, and reading a name gives the corner of its sector. All sums and
products on the way, taken with 64 bits, are exact.
-/
namespace ScenarioHost.Sector

/-- The letters that stand for a row: two small ones above `A`, one capital from `A` to `Z`, two
capitals below `Z`. -/
def Spells (letters : List Char) (row : Int) : Prop :=
  if row < 0 then letters.length = 2 ∧ ∀ c ∈ letters, 'a' ≤ c ∧ c ≤ 'z'
  else if row < 26 then letters.length = 1 ∧ ∀ c ∈ letters, 'A' ≤ c ∧ c ≤ 'Z'
  else letters.length = 2 ∧ ∀ c ∈ letters, 'A' ≤ c ∧ c ≤ 'Z'

/-! Letters. -/

theorem toNat_capital {k : Int} (h0 : 0 ≤ k) (h25 : k ≤ 25) :
    ((letter 'A' k).toNat : Int) = 65 + k := by
  have hbase : ('A'.toNat : Int) = 65 := rfl
  unfold letter
  rw [hbase, toNat_char_ofNat (by omega)]
  omega

theorem toNat_small {k : Int} (h0 : 0 ≤ k) (h25 : k ≤ 25) :
    ((letter 'z' (-k)).toNat : Int) = 122 - k := by
  have hbase : ('z'.toNat : Int) = 122 := rfl
  unfold letter
  rw [hbase, toNat_char_ofNat (by omega)]
  omega

theorem char_le_iff (a b : Char) : a ≤ b ↔ a.toNat ≤ b.toNat := by
  rw [Char.le_def, UInt32.le_iff_toNat_le]
  exact Iff.rfl

theorem is_letter_iff (c : Char) :
    isLetter c = true ↔ (97 ≤ c.toNat ∧ c.toNat ≤ 122) ∨ (65 ≤ c.toNat ∧ c.toNat ≤ 90) := by
  simp only [isLetter, Bool.or_eq_true, Bool.and_eq_true, decide_eq_true_eq, char_le_iff]
  exact Iff.rfl

theorem lower_of_small {c : Char} (h : 97 ≤ c.toNat) : lowerAscii c = c := by
  have hnot : ¬ ('A' ≤ c ∧ c ≤ 'Z') := by
    rw [char_le_iff, char_le_iff]
    have hz : 'Z'.toNat = 90 := rfl
    omega
  rw [lowerAscii, if_neg hnot]

theorem upper_of_capital {c : Char} (h : c.toNat ≤ 90) : upperAscii c = c := by
  have hnot : ¬ ('a' ≤ c ∧ c ≤ 'z') := by
    rw [char_le_iff, char_le_iff]
    have ha : 'a'.toNat = 97 := rfl
    omega
  rw [upperAscii, if_neg hnot]

/-! The row of a name. -/

def Tail (text : List Char) : Prop := ∃ c rest, text = c :: rest ∧ isLetter c = false

/-- A number never begins with a letter. -/
theorem tail_written (w : Written) : Tail w.text := by
  obtain ⟨blanks, sign, digits, rest, hblank, hdigit, hne, -⟩ := w
  change Tail (blanks ++ (sign.chars ++ (digits ++ rest)))
  cases blanks with
  | cons c cs =>
    have hc := hblank c List.mem_cons_self
    refine ⟨c, _, rfl, ?_⟩
    rw [Bool.eq_false_iff, ne_eq, is_letter_iff]
    unfold isBlankAscii at hc
    simp only [Bool.or_eq_true, Bool.and_eq_true, decide_eq_true_eq] at hc
    obtain rfl | hcontrol := hc
    · decide
    · omega
  | nil =>
    cases sign with
    | plus => exact ⟨'+', _, rfl, by decide⟩
    | minus => exact ⟨'-', _, rfl, by decide⟩
    | absent =>
      cases digits with
      | nil => exact absurd rfl hne
      | cons c cs =>
        have hc := (is_digit_iff c).mp (hdigit c List.mem_cons_self)
        refine ⟨c, _, rfl, ?_⟩
        rw [Bool.eq_false_iff, ne_eq, is_letter_iff]
        omega

theorem tail_column (column : Int) : Tail (toString column).toList := by
  rw [← text_writtenInt]
  exact tail_written _

/-- The letters of rows above `A` count down from the end of the alphabet. -/
theorem split_small {row : Int} (hlow : minRow ≤ row) (hneg : row < 0) (rest : List Char) :
    splitRow (rowName row ++ rest) = some (row, rest) := by
  have hmin : minRow = -676 := rfl
  have hfirst : (letter 'z' (-((-row - 1) / 26))).toNat = (122 - (-row - 1) / 26 : Int) :=
    toNat_small (by omega) (by omega)
  have hsecond : (letter 'z' (-((-row - 1) % 26))).toNat = (122 - (-row - 1) % 26 : Int) :=
    toNat_small (by omega) (by omega)
  rw [rowName, if_pos hneg]
  -- from here on only the codes of the letters matter
  generalize letter 'z' (-((-row - 1) / 26)) = a at hfirst
  generalize letter 'z' (-((-row - 1) % 26)) = b at hsecond
  have ha : isLetter a = true := (is_letter_iff a).mpr (by omega)
  have hb : isLetter b = true := (is_letter_iff b).mpr (by omega)
  have hsmall : 'a' ≤ a := by
    rw [char_le_iff]
    have hbase : 'a'.toNat = 97 := rfl
    omega
  have hlower : lowerAscii b = b := lower_of_small (by omega)
  rw [List.cons_append, List.cons_append, List.nil_append, splitRow, ha, hb, hlower]
  simp only [Bool.and_self, if_true, if_pos hsmall, Option.some.injEq, Prod.mk.injEq, and_true]
  omega

/-- The rows from `A` to `Z` have a letter of their own. -/
theorem split_single {row : Int} (h0 : 0 ≤ row) (h25 : row ≤ 25) {rest : List Char}
    (hrest : Tail rest) : splitRow (rowName row ++ rest) = some (row, rest) := by
  -- what comes after the letter is none, so it stands alone
  obtain ⟨c, tail, rfl, hc⟩ := hrest
  have hletter : (letter 'A' row).toNat = (65 + row : Int) := toNat_capital h0 h25
  rw [rowName, if_neg (by omega), if_pos (by omega)]
  generalize letter 'A' row = a at hletter
  have hupper : upperAscii a = a := upper_of_capital (by omega)
  rw [List.cons_append, List.nil_append, splitRow, hc, hupper]
  simp only [Bool.and_false, Bool.false_eq_true, if_false, Option.some.injEq, Prod.mk.injEq,
    and_true]
  omega

/-- The letters of rows below `Z` count up from the start of the alphabet. -/
theorem split_capital {row : Int} (h26 : 26 ≤ row) (hhigh : row ≤ maxRow) (rest : List Char) :
    splitRow (rowName row ++ rest) = some (row, rest) := by
  have hmax : maxRow = 701 := rfl
  have hfirst : (letter 'A' ((row - 26) / 26)).toNat = (65 + (row - 26) / 26 : Int) :=
    toNat_capital (by omega) (by omega)
  have hsecond : (letter 'A' ((row - 26) % 26)).toNat = (65 + (row - 26) % 26 : Int) :=
    toNat_capital (by omega) (by omega)
  rw [rowName, if_neg (by omega), if_neg (by omega)]
  generalize letter 'A' ((row - 26) / 26) = a at hfirst
  generalize letter 'A' ((row - 26) % 26) = b at hsecond
  have ha : isLetter a = true := (is_letter_iff a).mpr (by omega)
  have hb : isLetter b = true := (is_letter_iff b).mpr (by omega)
  have hcapital : ¬ 'a' ≤ a := by
    rw [char_le_iff]
    have hbase : 'a'.toNat = 97 := rfl
    omega
  have hupper : upperAscii b = b := upper_of_capital (by omega)
  rw [List.cons_append, List.cons_append, List.nil_append, splitRow, ha, hb, hupper]
  simp only [Bool.and_self, if_true, if_neg hcapital, Option.some.injEq, Prod.mk.injEq, and_true]
  omega

theorem split_rowName {row : Int} (hlow : minRow ≤ row) (hhigh : row ≤ maxRow) {rest : List Char}
    (hrest : Tail rest) : splitRow (rowName row ++ rest) = some (row, rest) := by
  by_cases hneg : row < 0
  · exact split_small hlow hneg rest
  · by_cases h26 : 26 ≤ row
    · exact split_capital h26 hhigh rest
    · exact split_single (by omega) (by omega) hrest

theorem spells_rowName {row : Int} (hlow : minRow ≤ row) (hhigh : row ≤ maxRow) :
    Spells (rowName row) row := by
  have hmin : minRow = -676 := rfl
  have hmax : maxRow = 701 := rfl
  have hsmall (k : Int) (h0 : 0 ≤ k) (h25 : k ≤ 25) :
      'a' ≤ letter 'z' (-k) ∧ letter 'z' (-k) ≤ 'z' := by
    have hk := toNat_small h0 h25
    have ha : 'a'.toNat = 97 := rfl
    have hz : 'z'.toNat = 122 := rfl
    rw [char_le_iff, char_le_iff]
    omega
  have hcapital (k : Int) (h0 : 0 ≤ k) (h25 : k ≤ 25) :
      'A' ≤ letter 'A' k ∧ letter 'A' k ≤ 'Z' := by
    have hk := toNat_capital h0 h25
    have ha : 'A'.toNat = 65 := rfl
    have hz : 'Z'.toNat = 90 := rfl
    rw [char_le_iff, char_le_iff]
    omega
  unfold Spells rowName
  split
  · refine ⟨rfl, ?_⟩
    simp only [List.forall_mem_cons, List.not_mem_nil, false_imp_iff, implies_true, and_true]
    exact ⟨hsmall _ (by omega) (by omega), hsmall _ (by omega) (by omega)⟩
  · split
    · refine ⟨rfl, ?_⟩
      simp only [List.forall_mem_cons, List.not_mem_nil, false_imp_iff, implies_true, and_true]
      exact hcapital row (by omega) (by omega)
    · refine ⟨rfl, ?_⟩
      simp only [List.forall_mem_cons, List.not_mem_nil, false_imp_iff, implies_true, and_true]
      exact ⟨hcapital _ (by omega) (by omega), hcapital _ (by omega) (by omega)⟩

/-! Names as a whole. -/

theorem toList_name (s : Sector) : s.name.toList = rowName s.row ++ (toString s.column).toList := by
  rw [name, String.toList_append, String.toList_ofList]

theorem split_name {s : Sector} (hlow : minRow ≤ s.row) (hhigh : s.row ≤ maxRow) :
    splitRow s.name.toList = some (s.row, (toString s.column).toList) := by
  rw [toList_name, split_rowName hlow hhigh (tail_column s.column)]

theorem name_injective {s t : Sector} (hs : minRow ≤ s.row ∧ s.row ≤ maxRow)
    (ht : minRow ≤ t.row ∧ t.row ≤ maxRow) (h : s.name = t.name) : s = t := by
  -- a name is taken apart in one way only
  have hsplit : some (s.row, (toString s.column).toList) =
      some (t.row, (toString t.column).toList) := by
    rw [← split_name hs.1 hs.2, ← split_name ht.1 ht.2, h]
  obtain ⟨hrow, hcolumn⟩ := Prod.mk.inj (Option.some.inj hsplit)
  have hrepr : s.column.repr = t.column.repr := String.toList_inj.mp hcolumn
  cases s
  cases t
  exact congrArg₂ Sector.mk hrow (Int.repr_injective hrepr)

theorem position_name {s : Sector} (hlow : minRow ≤ s.row) (hhigh : s.row ≤ maxRow) :
    position s.name =
      if -0x80000000 ≤ s.column ∧ s.column < 0x80000000 then s.corner else (.zero, .zero) := by
  have hparse : parse? s.name =
      if -0x80000000 ≤ s.column ∧ s.column < 0x80000000 then some s else none := by
    unfold parse?
    rw [split_name hlow hhigh]
    dsimp only
    rw [leading_number_toString]
    split <;> rfl
  unfold position
  rw [hparse]
  by_cases hcolumn : -0x80000000 ≤ s.column ∧ s.column < 0x80000000
  · rw [if_pos hcolumn, if_pos hcolumn]
  · rw [if_neg hcolumn, if_neg hcolumn]

/-! Arithmetic of 64 bits. The same names and positions, worked out with checks. -/

inductive Fault where
  /-- A result does not fit 64 bits. -/
  | overflow
  /-- A number is the code of no character. -/
  | noCharacter
deriving DecidableEq

def word (n : Int) : Except Fault Int :=
  if -0x8000000000000000 ≤ n ∧ n ≤ 0x7FFFFFFFFFFFFFFF then .ok n else .error .overflow

def checkedLetter (base : Char) (offset : Int) : Except Fault Char := do
  let code ← word (base.toNat + offset)
  if 0 ≤ code ∧ code.toNat.isValidChar then return Char.ofNat code.toNat else .error .noCharacter

def checkedRowName (row : Int) : Except Fault (List Char) :=
  if row < 0 then do
    let negated ← word (-row)
    let n ← word (negated - 1)
    let first ← word (-(n / 26))
    let second ← word (-(n % 26))
    return [← checkedLetter 'z' first, ← checkedLetter 'z' second]
  else if row < 26 then do return [← checkedLetter 'A' row]
  else do
    let n ← word (row - 26)
    return [← checkedLetter 'A' (n / 26), ← checkedLetter 'A' (n % 26)]

def checkedName (s : Sector) : Except Fault String := do
  return String.ofList (← checkedRowName s.row) ++ toString s.column

def checkedRow : List Char → Except Fault (Option (Int × List Char))
  | a :: b :: rest =>
    if isLetter a && isLetter b then
      if 'a' ≤ a then do
        let first ← word (122 - a.toNat)
        let scaled ← word (first * 26)
        let second ← word (122 - (lowerAscii b).toNat)
        let sum ← word (scaled + second)
        let shifted ← word (sum + 6)
        return some (← word (-shifted), rest)
      else do
        let first ← word (a.toNat - 65)
        let scaled ← word (first * 26)
        let second ← word ((upperAscii b).toNat - 65)
        let sum ← word (scaled + second)
        return some (← word (sum + 21), rest)
    else do return some (← word ((upperAscii a).toNat - 70), b :: rest)
  | _ => return none

def checkedDigits : Int → List Char → Except Fault (Option Int)
  | value, [] => return some value
  | value, c :: rest => do
    let scaled ← word (value * 10)
    let next ← word (scaled + (c.toNat - 48 : Nat))
    if 0x80000000 < next then return none else checkedDigits next rest

def checkedNumber (text : List Char) : Except Fault (Option Int) := do
  let (negative, rest) := splitSign (text.dropWhile isBlankAscii)
  let digits := rest.takeWhile isDigit
  if digits.isEmpty then return none
  else
    match ← checkedDigits 0 digits with
    | none => return none
    | some n =>
      let value ← if negative then word (-n) else pure n
      return if value < 0x80000000 then some value else none

def checkedPosition (label : String) : Except Fault (Single × Single) := do
  match ← checkedRow label.toList with
  | none => return (.zero, .zero)
  | some (row, rest) =>
    match ← checkedNumber rest with
    | none => return (.zero, .zero)
    | some column => do
      let left ← word (column - 5)
      let x ← word (left * edge)
      let y ← word (row * edge)
      return (Single.ofInt x, Single.ofInt y)

theorem word_bind {α : Type} {n : Int} (hlow : -0x8000000000000000 ≤ n)
    (hhigh : n ≤ 0x7FFFFFFFFFFFFFFF) (f : Int → Except Fault α) : (word n >>= f) = f n := by
  rw [word, if_pos ⟨hlow, hhigh⟩]
  rfl

theorem toNat_lt (c : Char) : c.toNat < 0x110000 := by
  rcases c.valid with h | h
  · exact h.trans (by decide)
  · exact h.2

/-- A letter near its base is a character. -/
theorem checked_letter {base : Char} {offset : Int} (h0 : 0 ≤ base.toNat + offset)
    (hhigh : base.toNat + offset < 0xD800) :
    checkedLetter base offset = .ok (letter base offset) := by
  have hvalid : (base.toNat + offset).toNat.isValidChar := Or.inl (by omega)
  rw [checkedLetter, word_bind (by omega) (by omega), if_pos ⟨h0, hvalid⟩]
  rfl

theorem checked_rowName {row : Int} (hlow : minRow ≤ row) (hhigh : row ≤ maxRow) :
    checkedRowName row = .ok (rowName row) := by
  have hmin : minRow = -676 := rfl
  have hmax : maxRow = 701 := rfl
  have ha : 'A'.toNat = 65 := rfl
  have hz : 'z'.toNat = 122 := rfl
  unfold checkedRowName rowName
  split
  · rw [word_bind (by omega) (by omega), word_bind (by omega) (by omega),
      word_bind (by omega) (by omega), word_bind (by omega) (by omega),
      checked_letter (by omega) (by omega), checked_letter (by omega) (by omega)]
    rfl
  · split
    · rw [checked_letter (by omega) (by omega)]
      rfl
    · rw [word_bind (by omega) (by omega), checked_letter (by omega) (by omega),
        checked_letter (by omega) (by omega)]
      rfl

theorem checked_name {s : Sector} (hlow : minRow ≤ s.row) (hhigh : s.row ≤ maxRow) :
    checkedName s = .ok s.name := by
  rw [checkedName, checked_rowName hlow hhigh]
  rfl

/-- Any two letters give a row that fits, whichever characters stand there. -/
theorem checked_row (text : List Char) :
    checkedRow text = .ok ((splitRow text).map fun p => (p.1 - 5, p.2)) := by
  cases text with
  | nil => rfl
  | cons a rest =>
    cases rest with
    | nil => rfl
    | cons b rest =>
      -- codes of characters have 21 bits, so nothing comes near 64
      have ha := toNat_lt a
      have hupper := toNat_lt (upperAscii a)
      have hsmall := toNat_lt (lowerAscii b)
      have hcapital := toNat_lt (upperAscii b)
      rw [checkedRow, splitRow]
      by_cases hletters : (isLetter a && isLetter b) = true
      · rw [if_pos hletters, if_pos hletters]
        by_cases hcase : 'a' ≤ a
        · have hrow : -((122 - (a.toNat : Int)) * 26 + (122 - ((lowerAscii b).toNat : Int)) + 6) =
              -((122 - (a.toNat : Int)) * 26 + (122 - ((lowerAscii b).toNat : Int))) - 1 - 5 := by
            omega
          rw [if_pos hcase, if_pos hcase, word_bind (by omega) (by omega),
            word_bind (by omega) (by omega), word_bind (by omega) (by omega),
            word_bind (by omega) (by omega), word_bind (by omega) (by omega),
            word_bind (by omega) (by omega), hrow]
          rfl
        · have hrow : ((a.toNat : Int) - 65) * 26 + (((upperAscii b).toNat : Int) - 65) + 21 =
              ((a.toNat : Int) - 65) * 26 + (((upperAscii b).toNat : Int) - 65) + 26 - 5 := by
            omega
          rw [if_neg hcase, if_neg hcase, word_bind (by omega) (by omega),
            word_bind (by omega) (by omega), word_bind (by omega) (by omega),
            word_bind (by omega) (by omega), word_bind (by omega) (by omega), hrow]
          rfl
      · have hrow : ((upperAscii a).toNat : Int) - 70 = ((upperAscii a).toNat : Int) - 65 - 5 := by
          omega
        rw [if_neg hletters, if_neg hletters, word_bind (by omega) (by omega), hrow]
        rfl

/-- The row of a label is small, whatever the label is. -/
theorem row_bounds {text rest : List Char} {row : Int} (h : splitRow text = some (row, rest)) :
    -0x10000000 ≤ row ∧ row ≤ 0x10000000 := by
  cases text with
  | nil => cases h
  | cons a tail =>
    cases tail with
    | nil => cases h
    | cons b tail =>
      have ha := toNat_lt a
      have hupper := toNat_lt (upperAscii a)
      have hsmall := toNat_lt (lowerAscii b)
      have hcapital := toNat_lt (upperAscii b)
      rw [splitRow] at h
      split at h
      · split at h
        · obtain ⟨hrow, -⟩ := Prod.mk.inj (Option.some.inj h)
          omega
        · obtain ⟨hrow, -⟩ := Prod.mk.inj (Option.some.inj h)
          omega
      · obtain ⟨hrow, -⟩ := Prod.mk.inj (Option.some.inj h)
        omega

/-- Reading stops before the next digit could take the number out of 64 bits. -/
theorem checked_digits (cs : List Char) (n : Int) (hdigits : ∀ c ∈ cs, isDigit c = true)
    (h0 : 0 ≤ n) (hhigh : n ≤ 0x80000000) : checkedDigits n cs = .ok (accumulate n cs) := by
  induction cs generalizing n with
  | nil => rfl
  | cons c cs ih =>
    have hc := (is_digit_iff c).mp (hdigits c List.mem_cons_self)
    rw [checkedDigits, word_bind (by omega) (by omega), word_bind (by omega) (by omega), accumulate]
    by_cases hbig : 0x80000000 < n * 10 + (c.toNat - 48 : Nat)
    · rw [if_pos hbig, if_pos hbig]
      rfl
    · rw [if_neg hbig, if_neg hbig]
      exact ih _ (fun d hd => hdigits d (List.mem_cons_of_mem c hd)) (by omega) (by omega)

theorem accumulate_bounds {cs : List Char} {n m : Int} (h0 : 0 ≤ n) (hhigh : n ≤ 0x80000000)
    (h : accumulate n cs = some m) : 0 ≤ m ∧ m ≤ 0x80000000 := by
  induction cs generalizing n with
  | nil =>
    cases h
    exact ⟨h0, hhigh⟩
  | cons c cs ih =>
    rw [accumulate] at h
    by_cases hbig : 0x80000000 < n * 10 + (c.toNat - 48 : Nat)
    · rw [if_pos hbig] at h
      cases h
    · rw [if_neg hbig] at h
      exact ih (by omega) (by omega) h

theorem checked_number (text : List Char) : checkedNumber text = .ok (leadingNumber? text) := by
  have hdigits : ∀ c ∈ (splitSign (text.dropWhile isBlankAscii)).2.takeWhile isDigit,
      isDigit c = true := fun c hc => List.mem_takeWhile_imp hc
  unfold checkedNumber leadingNumber?
  dsimp only
  by_cases hempty : ((splitSign (text.dropWhile isBlankAscii)).2.takeWhile isDigit).isEmpty = true
  · rw [if_pos hempty, if_pos hempty]
    rfl
  · rw [if_neg hempty, if_neg hempty, checked_digits _ _ hdigits (by omega) (by omega)]
    cases hvalue : accumulate 0
        ((splitSign (text.dropWhile isBlankAscii)).2.takeWhile isDigit) with
    | none => rfl
    | some n =>
      have hbounds := accumulate_bounds (by omega) (by omega) hvalue
      cases (splitSign (text.dropWhile isBlankAscii)).1 with
      | false => rfl
      | true =>
        have hword : word (-n) = .ok (-n) := by
          rw [word, if_pos (by omega)]
        dsimp only [bind, Except.bind, pure, Except.pure]
        rw [if_pos rfl, if_pos rfl, hword]

theorem number_bounds {text : List Char} {n : Int} (h : leadingNumber? text = some n) :
    -0x80000000 ≤ n ∧ n < 0x80000000 := by
  obtain ⟨w, -, -, hfits⟩ := (leading_number_eq_some_iff text n).mp h
  exact (fits_iff n).mp hfits

/-- No label, well formed or not, takes a position out of 64 bits on the way. -/
theorem checked_position (label : String) : checkedPosition label = .ok (position label) := by
  have hedge : edge = 20000 := rfl
  unfold checkedPosition position parse?
  rw [checked_row]
  cases hrow : splitRow label.toList with
  | none => rfl
  | some p =>
    obtain ⟨row, rest⟩ := p
    -- row and column have fewer than 33 bits, so 15 more for the edge of a sector do no harm
    have hbounds := row_bounds hrow
    dsimp only [Option.map, bind, Except.bind]
    rw [checked_number]
    cases hcolumn : leadingNumber? rest with
    | none => rfl
    | some column =>
      have hcolumns := number_bounds hcolumn
      have hleft : word (column - 5) = .ok (column - 5) := by
        rw [word, if_pos (by omega)]
      have hx : word ((column - 5) * edge) = .ok ((column - 5) * edge) := by
        rw [word, hedge, if_pos (by omega)]
      have hy : word ((row - 5) * edge) = .ok ((row - 5) * edge) := by
        rw [word, hedge, if_pos (by omega)]
      dsimp only
      rw [hleft]
      dsimp only
      rw [hx]
      dsimp only
      rw [hy]
      rfl

/-- The name of a sector is the letters of its row and the number of its column; no other sector
has it, and it is read as the corner of the sector if the column fits 32 bits. Working out a name or
a position takes no number out of 64 bits, and no letter is the code of no character. -/
theorem names_spell_sectors (s : Sector) (hrow : minRow ≤ s.row ∧ s.row ≤ maxRow) :
    (∃ letters, Spells letters s.row ∧ s.name.toList = letters ++ (toString s.column).toList) ∧
    (∀ t : Sector, minRow ≤ t.row ∧ t.row ≤ maxRow → t.name = s.name → t = s) ∧
    position s.name =
      (if -0x80000000 ≤ s.column ∧ s.column < 0x80000000 then
        (Single.ofInt ((s.column - 5) * 20000), Single.ofInt ((s.row - 5) * 20000))
      else (.zero, .zero)) ∧
    checkedName s = .ok s.name ∧ checkedPosition s.name = .ok (position s.name) := by
  obtain ⟨hlow, hhigh⟩ := hrow
  refine ⟨⟨rowName s.row, spells_rowName hlow hhigh, toList_name s⟩, ?_, ?_,
    checked_name hlow hhigh, checked_position s.name⟩
  · intro t ht hname
    exact name_injective ht ⟨hlow, hhigh⟩ hname
  · exact position_name hlow hhigh

/-- The outermost sector of the north west that can be read. -/
theorem name_of_north_west :
    (minRow ≤ -676 ∧ (-676 : Int) ≤ maxRow) ∧ name ⟨-676, -0x80000000⟩ = "aa-2147483648" ∧
    position "aa-2147483648" =
      (Single.ofInt ((-0x80000000 - 5) * 20000), Single.ofInt ((-676 - 5) * 20000)) := by
  have hname : name ⟨-676, -0x80000000⟩ = "aa-2147483648" := by decide
  have hspelled := names_spell_sectors ⟨-676, -0x80000000⟩ ⟨by decide, by decide⟩
  refine ⟨⟨by decide, by decide⟩, hname, ?_⟩
  rw [← hname]
  exact hspelled.2.2.1.trans (if_pos ⟨by decide, by decide⟩)

end ScenarioHost.Sector
