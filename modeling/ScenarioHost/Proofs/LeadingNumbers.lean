import Mathlib
import ScenarioHost.Sector
import ScenarioHost.Proofs.Numerals

/-!
Whole numbers at the beginning of a text: blanks, a sign, digits, and anything that does not go on
with a digit. Reading gives the number that sign and digits spell, if it has 32 bits, and nothing for
a text that is not of this kind.
-/
namespace ScenarioHost.Sector

inductive Sign where
  | absent
  | plus
  | minus
deriving DecidableEq

namespace Sign

def chars : Sign → List Char
  | absent => []
  | plus => ['+']
  | minus => ['-']

def apply : Sign → ℕ → ℤ
  | minus, n => -n
  | _, n => n

theorem apply_eq (sign : Sign) (n : ℕ) :
    sign.apply n = if decide (sign = .minus) = true then -(n : ℤ) else n := by
  cases sign with
  | _ => rfl

end Sign

/-- A text that begins with a whole number, in its parts. -/
structure Written where
  blanks : List Char
  sign : Sign
  digits : List Char
  rest : List Char
  blank : ∀ c ∈ blanks, isBlankAscii c = true
  digit : ∀ c ∈ digits, isDigit c = true
  nonempty : digits ≠ []
  /-- All digits that stand there belong to the number. -/
  ends : ∀ c ∈ rest.head?, isDigit c = false

namespace Written

def text (w : Written) : List Char := w.blanks ++ (w.sign.chars ++ (w.digits ++ w.rest))

def value (w : Written) : ℤ := w.sign.apply (Nat.ofDigitChars 10 w.digits 0)

end Written

theorem digit_is_plain {c : Char} (h : isDigit c = true) :
    isBlankAscii c = false ∧ c ≠ '-' ∧ c ≠ '+' := by
  have hbounds := (is_digit_iff c).mp h
  have hspace : c ≠ ' ' := by
    rintro rfl
    exact absurd h (by decide)
  refine ⟨?_, ?_, ?_⟩
  · rw [isBlankAscii, decide_eq_false hspace]
    simp only [Bool.false_or, Bool.and_eq_false_iff, decide_eq_false_iff_not]
    omega
  · rintro rfl
    exact absurd h (by decide)
  · rintro rfl
    exact absurd h (by decide)

/-- A sign is split off where digits follow it. -/
theorem split_sign_chars (sign : Sign) {c : Char} (h : isDigit c = true) (rest : List Char) :
    (sign.chars ++ c :: rest).dropWhile isBlankAscii = sign.chars ++ c :: rest ∧
      splitSign (sign.chars ++ c :: rest) = (decide (sign = .minus), c :: rest) := by
  obtain ⟨hblank, hminus, hplus⟩ := digit_is_plain h
  cases sign with
  | plus => exact ⟨rfl, rfl⟩
  | minus => exact ⟨rfl, rfl⟩
  | absent =>
    refine ⟨List.dropWhile_cons_of_neg (by rw [hblank]; exact Bool.false_ne_true), ?_⟩
    change splitSign (c :: rest) = (false, c :: rest)
    unfold splitSign
    split
    · rename_i heq
      exact absurd (List.cons.inj heq).1 hminus
    · rename_i heq
      exact absurd (List.cons.inj heq).1 hplus
    · rfl

/-- A number is given up as soon as it is over `2 ^ 31`; by then all that follows is over it too. -/
theorem accumulate_digits (cs : List Char) (n : Nat) (h : n ≤ 0x80000000) :
    accumulate n cs =
      if Nat.ofDigitChars 10 cs n ≤ 0x80000000 then some (Nat.ofDigitChars 10 cs n : Int)
      else none := by
  induction cs generalizing n with
  | nil => rw [accumulate, Nat.ofDigitChars_nil, if_pos h]
  | cons c cs ih =>
    have hnext : (n : Int) * 10 + (c.toNat - 48 : Nat) =
        (10 * n + (c.toNat - '0'.toNat) : Nat) := by
      have hzero : '0'.toNat = 48 := rfl
      omega
    rw [accumulate, Nat.ofDigitChars_cons, hnext]
    by_cases hbig : 0x80000000 < 10 * n + (c.toNat - '0'.toNat)
    · have hafter := le_of_digit_chars cs (10 * n + (c.toNat - '0'.toNat))
      rw [if_pos (by omega), if_neg (by omega)]
    · rw [if_neg (by omega), ih _ (by omega)]

namespace Written

/-- Behind the blanks stands what is no blank: a sign or a digit. -/
theorem drop_blanks (w : Written) :
    w.text.dropWhile isBlankAscii = w.sign.chars ++ (w.digits ++ w.rest) := by
  obtain ⟨c, cs, hdigits⟩ := List.exists_cons_of_ne_nil w.nonempty
  have hc : isDigit c = true := w.digit c (by rw [hdigits]; exact List.mem_cons_self)
  rw [text, List.dropWhile_append_of_pos w.blank, hdigits]
  exact (split_sign_chars w.sign hc (cs ++ w.rest)).1

theorem split_text (w : Written) :
    splitSign (w.text.dropWhile isBlankAscii) =
      (decide (w.sign = .minus), w.digits ++ w.rest) := by
  obtain ⟨c, cs, hdigits⟩ := List.exists_cons_of_ne_nil w.nonempty
  have hc : isDigit c = true := w.digit c (by rw [hdigits]; exact List.mem_cons_self)
  rw [drop_blanks, hdigits]
  exact (split_sign_chars w.sign hc (cs ++ w.rest)).2

theorem take_blanks (w : Written) : w.text.takeWhile isBlankAscii = w.blanks := by
  have hcut := List.takeWhile_append_dropWhile (p := isBlankAscii) (l := w.text)
  rw [drop_blanks] at hcut
  exact List.append_cancel_right hcut

theorem take_digits (w : Written) : (w.digits ++ w.rest).takeWhile isDigit = w.digits := by
  have hrest : w.rest.takeWhile isDigit = [] := by
    cases h : w.rest with
    | nil => rfl
    | cons c cs =>
      have hc : isDigit c = false := w.ends c (by rw [h]; rfl)
      exact List.takeWhile_cons_of_neg (by rw [hc]; exact Bool.false_ne_true)
  rw [List.takeWhile_append_of_pos w.digit, hrest, List.append_nil]

end Written

/-- Reading finds the parts of a text, whatever stands behind the digits. -/
theorem leading_number_text (w : Written) :
    leadingNumber? w.text =
      if -0x80000000 ≤ w.value ∧ w.value < 0x80000000 then some w.value else none := by
  have hempty : w.digits.isEmpty = false := List.isEmpty_eq_false_iff.mpr w.nonempty
  have hread := accumulate_digits w.digits 0 (by omega)
  rw [Nat.cast_zero] at hread
  unfold leadingNumber? Written.value
  rw [w.split_text]
  dsimp only
  rw [w.take_digits, hempty, hread, Sign.apply_eq, if_neg Bool.false_ne_true]
  generalize Nat.ofDigitChars 10 w.digits 0 = n
  generalize hv : (if decide (w.sign = .minus) = true then -(n : ℤ) else n) = v
  -- `2 ^ 31` itself is read, and refused if no minus stands before it
  by_cases hbig : n ≤ 0x80000000
  · have hlow : -0x80000000 ≤ v := by
      rw [← hv]
      split <;> omega
    rw [if_pos hbig]
    dsimp only
    rw [hv]
    exact if_congr (and_iff_right hlow).symm rfl rfl
  · have hout : ¬ (-0x80000000 ≤ v ∧ v < 0x80000000) := by
      rw [← hv]
      split <;> omega
    rw [if_neg hbig, if_neg hout]

def Fits (v : ℤ) : Prop := -0x80000000 ≤ v ∧ v ≤ 0x7FFFFFFF

theorem fits_iff (v : ℤ) : Fits v ↔ -0x80000000 ≤ v ∧ v < 0x80000000 :=
  and_congr_right fun _ => Int.lt_add_one_iff.symm

/-! Cutting a text. -/

theorem exists_sign (cs : List Char) : ∃ sign : Sign, cs = sign.chars ++ (splitSign cs).2 := by
  unfold splitSign
  split
  · exact ⟨.minus, rfl⟩
  · exact ⟨.plus, rfl⟩
  · exact ⟨.absent, rfl⟩

/-- A text with digits behind the blanks and the sign can be cut. -/
theorem exists_written {text : List Char}
    (h : (splitSign (text.dropWhile isBlankAscii)).2.takeWhile isDigit ≠ []) :
    ∃ w : Written, w.text = text := by
  obtain ⟨sign, hsign⟩ := exists_sign (text.dropWhile isBlankAscii)
  generalize (splitSign (text.dropWhile isBlankAscii)).2 = behind at h hsign
  refine ⟨{ blanks := text.takeWhile isBlankAscii
            sign := sign
            digits := behind.takeWhile isDigit
            rest := behind.dropWhile isDigit
            blank := fun c hc => List.mem_takeWhile_imp hc
            digit := fun c hc => List.mem_takeWhile_imp hc
            nonempty := h
            ends := ?_ }, ?_⟩
  · intro c hc
    have hnot := List.head?_dropWhile_not isDigit behind
    rw [Option.mem_def.mp hc] at hnot
    exact hnot
  · calc text.takeWhile isBlankAscii ++
          (sign.chars ++ (behind.takeWhile isDigit ++ behind.dropWhile isDigit))
      _ = text.takeWhile isBlankAscii ++ (sign.chars ++ behind) := by
        rw [List.takeWhile_append_dropWhile]
      _ = text.takeWhile isBlankAscii ++ text.dropWhile isBlankAscii := by rw [← hsign]
      _ = text := List.takeWhile_append_dropWhile

/-- Nothing is read from a text that cannot be cut. -/
theorem leading_number_uncut {text : List Char} (h : ∀ w : Written, w.text ≠ text) :
    leadingNumber? text = none := by
  have hempty : (splitSign (text.dropWhile isBlankAscii)).2.takeWhile isDigit = [] := by
    by_contra hdigits
    obtain ⟨w, hw⟩ := exists_written hdigits
    exact h w hw
  unfold leadingNumber?
  dsimp only
  rw [hempty]
  rfl

theorem leading_number_written (w : Written) (v : ℤ) :
    leadingNumber? w.text = some v ↔ w.value = v ∧ Fits v := by
  rw [leading_number_text, Option.ite_none_right_eq_some, ← fits_iff, and_comm]
  constructor
  · rintro ⟨hvalue, hfits⟩
    obtain rfl := Option.some.inj hvalue
    exact ⟨rfl, hfits⟩
  · rintro ⟨rfl, hfits⟩
    exact ⟨rfl, hfits⟩

theorem leading_number_eq_some_iff (text : List Char) (v : ℤ) :
    leadingNumber? text = some v ↔ ∃ w : Written, w.text = text ∧ w.value = v ∧ Fits v := by
  constructor
  · intro hread
    by_cases hcut : ∃ w : Written, w.text = text
    · obtain ⟨w, rfl⟩ := hcut
      exact ⟨w, rfl, (leading_number_written w v).mp hread⟩
    · rw [leading_number_uncut fun w hw => hcut ⟨w, hw⟩] at hread
      cases hread
  · rintro ⟨w, rfl, hvalue⟩
    exact (leading_number_written w v).mpr hvalue

theorem leading_number_eq_none_iff (text : List Char) :
    leadingNumber? text = none ↔ ∀ w : Written, w.text = text → ¬ Fits w.value := by
  rw [Option.eq_none_iff_forall_ne_some]
  constructor
  · rintro hnone w rfl hfits
    exact hnone w.value ((leading_number_written w w.value).mpr ⟨rfl, hfits⟩)
  · intro hout v hread
    obtain ⟨w, hw, rfl, hfits⟩ := (leading_number_eq_some_iff text v).mp hread
    exact hout w hw hfits

/-! Numbers as they are written out. -/

def writtenInt (i : ℤ) : Written where
  blanks := []
  sign := if i < 0 then .minus else .absent
  digits := Nat.toDigits 10 i.natAbs
  rest := []
  blank := List.forall_mem_nil _
  digit _ := is_digit_of_mem_toDigits
  nonempty := Nat.toDigits_ne_nil
  ends _ h := by cases h

theorem text_writtenInt (i : ℤ) : (writtenInt i).text = (toString i).toList := by
  rw [toList_toString_int]
  unfold Written.text writtenInt
  dsimp only
  rw [List.nil_append, List.append_nil]
  split
  · rfl
  · rfl

theorem value_writtenInt (i : ℤ) : (writtenInt i).value = i := by
  unfold Written.value writtenInt
  dsimp only
  rw [Nat.ofDigitChars_ten_toDigits]
  split
  · dsimp only [Sign.apply]
    omega
  · dsimp only [Sign.apply]
    omega

/-- An integer is read from its text if it has 32 bits. -/
theorem leading_number_toString (i : ℤ) :
    leadingNumber? (toString i).toList =
      if -0x80000000 ≤ i ∧ i < 0x80000000 then some i else none := by
  rw [← text_writtenInt, leading_number_text, value_writtenInt]

end ScenarioHost.Sector
