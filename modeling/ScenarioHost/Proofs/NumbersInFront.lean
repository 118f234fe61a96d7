import ScenarioHost.Proofs.PlainNumbers
import ScenarioHost.Proofs.SectorNames

/-!
What decides the number that is read in front of a text. It is the sign and the digits, as far as
they go: blanks, zeros before the digits and anything behind them are of no account. Adding up the
digits stays within 64 bits however many there are.
-/
namespace ScenarioHost.Sector

theorem is_blank_ascii_iff (c : Char) :
    isBlankAscii c = true ↔ c ∈ [' ', '\t', '\n', '\x0b', '\x0c', '\r'] := by
  have hcode (d : Char) : c = d ↔ c.toNat = d.toNat := Char.toNat_inj.symm
  simp only [isBlankAscii, Bool.or_eq_true, Bool.and_eq_true, decide_eq_true_eq, List.mem_cons,
    List.not_mem_nil, or_false, hcode]
  change c.toNat = 32 ∨ 9 ≤ c.toNat ∧ c.toNat ≤ 13 ↔ c.toNat = 32 ∨ c.toNat = 9 ∨ c.toNat = 10 ∨
    c.toNat = 11 ∨ c.toNat = 12 ∨ c.toNat = 13
  omega

/-- The sign and the digits alone, with zeros before the digits, spell the same number. -/
theorem exists_bare (w : Written) (zeros : ℕ) :
    ∃ v : Written, v.text = w.sign.chars ++ (List.replicate zeros '0' ++ w.digits) ∧
      v.value = w.value := by
  refine ⟨{ blanks := []
            sign := w.sign
            digits := List.replicate zeros '0' ++ w.digits
            rest := []
            blank := List.forall_mem_nil _
            digit := (digits_zeros zeros).append w.digit
            nonempty := List.append_ne_nil_of_right_ne_nil _ w.nonempty
            ends := ?_ }, ?_, ?_⟩
  · intro c hc
    cases hc
  · rw [Written.text, List.nil_append, List.append_nil]
  · apply congrArg w.sign.apply
    dsimp only
    rw [Nat.ofDigitChars_append, Nat.ofDigitChars_replicate_zero, Nat.mul_zero]

theorem leading_number_bare (w : Written) (zeros : ℕ) :
    leadingNumber? (w.sign.chars ++ (List.replicate zeros '0' ++ w.digits)) =
      leadingNumber? w.text := by
  obtain ⟨v, htext, hvalue⟩ := exists_bare w zeros
  rw [← htext, leading_number_text, leading_number_text, hvalue]

/-- The range reaches one further below zero than above. -/
theorem leading_number_at_bound (w : Written) (h : Nat.ofDigitChars 10 w.digits 0 = 0x80000000) :
    leadingNumber? w.text = if w.sign = .minus then some (-0x80000000) else none := by
  have hvalue : w.value = if w.sign = .minus then -0x80000000 else 0x80000000 := by
    unfold Written.value
    rw [h]
    cases w.sign with
    | _ => rfl
  rw [leading_number_text, hvalue]
  by_cases hminus : w.sign = .minus
  · rw [if_pos hminus, if_pos hminus]
    exact if_pos ⟨le_rfl, by decide⟩
  · rw [if_neg hminus, if_neg hminus]
    exact if_neg fun hbounds => absurd hbounds.2 (lt_irrefl _)

/-- A number is read from a text just if the text is cut into blanks, a sign, digits and a rest such
that sign and digits spell it and it has 32 bits. Blanks, zeros before the digits and the rest are
of no account, and no sum or product on the way leaves 64 bits. -/
theorem numbers_are_read_in_front :
    (∀ c, isBlankAscii c = true ↔ c ∈ [' ', '\t', '\n', '\x0b', '\x0c', '\r']) ∧
    (∀ w : Written, w.text.takeWhile isBlankAscii = w.blanks ∧
      (w.digits ++ w.rest).takeWhile isDigit = w.digits) ∧
    (∀ text v, leadingNumber? text = some v ↔
      ∃ w : Written, w.text = text ∧ w.value = v ∧ Fits v) ∧
    (∀ text, leadingNumber? text = none ↔ ∀ w : Written, w.text = text → ¬ Fits w.value) ∧
    (∀ (w : Written) zeros,
      leadingNumber? (w.sign.chars ++ (List.replicate zeros '0' ++ w.digits)) =
        leadingNumber? w.text) ∧
    (∀ w : Written, Nat.ofDigitChars 10 w.digits 0 = 0x80000000 →
      leadingNumber? w.text = if w.sign = .minus then some (-0x80000000) else none) ∧
    (∀ w : Written, checkedDigits 0 w.digits = .ok (accumulate 0 w.digits)) ∧
    ∀ text, checkedNumber text = .ok (leadingNumber? text) := by
  refine ⟨is_blank_ascii_iff, fun w => ⟨w.take_blanks, w.take_digits⟩, leading_number_eq_some_iff,
    leading_number_eq_none_iff, leading_number_bare, leading_number_at_bound, ?_, checked_number⟩
  intro w
  exact checked_digits w.digits 0 w.digit le_rfl (by decide)

def aboveRange : Written where
  blanks := [' ', '\t']
  sign := .plus
  digits := ['0', '0', '2', '1', '4', '7', '4', '8', '3', '6', '4', '8']
  rest := [' ', 'k', 'm']
  blank := List.all_eq_true.mp rfl
  digit := List.all_eq_true.mp rfl
  nonempty := List.cons_ne_nil _ _
  ends := by
    rintro c ⟨⟩
    rfl

/-- Only its negative is read. -/
theorem number_at_bound_is_read :
    String.ofList aboveRange.text = " \t+002147483648 km" ∧
      leadingNumber? aboveRange.text = none ∧ ¬ Fits aboveRange.value ∧
      leadingNumber? { aboveRange with sign := .minus }.text = some (-0x80000000) := by
  obtain ⟨-, -, -, hnone, -, hbound, -, -⟩ := numbers_are_read_in_front
  have hdigits : Nat.ofDigitChars 10 aboveRange.digits 0 = 0x80000000 := by decide
  have habove : leadingNumber? aboveRange.text = none := hbound aboveRange hdigits
  refine ⟨by decide, habove, (hnone _).mp habove aboveRange rfl, ?_⟩
  exact hbound { aboveRange with sign := .minus } hdigits

end ScenarioHost.Sector
