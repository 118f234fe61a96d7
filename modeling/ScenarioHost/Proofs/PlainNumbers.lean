import ScenarioHost.Decimal.Layout
import ScenarioHost.Decimal.Numeral
import ScenarioHost.Proofs.LeadingNumbers
import ScenarioHost.Proofs.ShortestDecimals
import ScenarioHost.Proofs.Texts

/-!
Numbers in plain decimal notation. The text of a decimal is read as a decimal of the same value,
though not always the same digits, and as a ratio of that value unless it is out of all proportion.
-/
namespace ScenarioHost

/-! Digits. -/

def Digits (cs : List Char) : Prop := ∀ c ∈ cs, isDigit c = true

theorem digitsValue_eq {cs : List Char} (h : Digits cs) :
    digitsValue 10 cs = Nat.ofDigitChars 10 cs 0 := digits_value_eq h 0

theorem digits_toDigits (n : ℕ) : Digits (Nat.toDigits 10 n) :=
  fun _ hc => is_digit_of_mem_toDigits hc

theorem digits_zeros (n : ℕ) : Digits (List.replicate n '0') := by
  intro c hc
  rw [List.eq_of_mem_replicate hc]
  rfl

theorem Digits.append {front back : List Char} (h : Digits front) (h' : Digits back) :
    Digits (front ++ back) := by
  intro c hc
  exact (List.mem_append.mp hc).elim (h c) (h' c)

theorem Digits.takeWhile_point {cs : List Char} (h : Digits cs) (rest : List Char) :
    (cs ++ '.' :: rest).takeWhile isDigit = cs ∧
      (cs ++ '.' :: rest).dropWhile isDigit = '.' :: rest :=
  cut_at h (by decide) rest

theorem Digits.takeWhile {cs : List Char} (h : Digits cs) :
    cs.takeWhile isDigit = cs ∧ cs.dropWhile isDigit = [] := by
  refine ⟨List.takeWhile_eq_self_iff.mpr h, List.dropWhile_eq_nil_iff.mpr h⟩

/-- A decimal written with its digits, and with a point among them if there are places behind it. -/
structure Spelled (d : Decimal) (cs whole fraction : List Char) : Prop where
  text : cs = whole ∧ fraction = [] ∨ cs = whole ++ '.' :: fraction
  nonempty : whole ≠ []
  before : Digits whole
  behind : Digits fraction
  value : (Nat.ofDigitChars 10 (whole ++ fraction) 0 : ℚ) * 10 ^ (-(fraction.length : ℤ)) = d.value

theorem Decimal.value_scaled (d : Decimal) {n places : ℕ} (hdigits : n = d.digits)
    (hplaces : d.exponent = -(places : ℤ)) : (n : ℚ) * 10 ^ (-(places : ℤ)) = d.value := by
  rw [hdigits, ← hplaces]
  rfl

section Spellings

variable {d : Decimal} {digits : List Char} (hdigits : Digits digits) (hne : digits ≠ [])
  (hvalue : Nat.ofDigitChars 10 digits 0 = d.digits)

include hdigits hne hvalue

/-- A whole number: its digits and then zeros, of which zero itself needs none. -/
theorem spelled_whole {zeros : ℕ} (hwhole : 0 ≤ d.exponent)
    (hzeros : zeros = if d.digits = 0 then 0 else d.exponent.toNat) :
    Spelled d (digits ++ List.replicate zeros '0') (digits ++ List.replicate zeros '0') [] := by
  have hnumber : (Nat.ofDigitChars 10 (digits ++ List.replicate zeros '0') 0 : ℚ) = d.value := by
    rw [Nat.ofDigitChars_append, hvalue, Nat.ofDigitChars_replicate_zero, Decimal.value]
    by_cases hzero : d.digits = 0
    · rw [hzero]
      simp
    · have hexponent : (10 : ℚ) ^ d.exponent.toNat = 10 ^ d.exponent := by
        rw [← zpow_natCast, Int.toNat_of_nonneg hwhole]
      rw [hzeros, if_neg hzero, ← hexponent]
      push_cast
      rw [mul_comm]
  refine ⟨Or.inl ⟨rfl, rfl⟩, List.append_ne_nil_of_left_ne_nil hne _,
    hdigits.append (digits_zeros _), List.forall_mem_nil _, ?_⟩
  rw [List.append_nil, hnumber]
  simp

variable {places : ℕ} (hplaces : d.exponent = -(places : ℤ))

include hplaces

omit hne in
/-- The first digit stands behind the point. -/
theorem spelled_behind_zeros (hshort : digits.length ≤ places) :
    Spelled d ('0' :: '.' :: (List.replicate (places - digits.length) '0' ++ digits)) ['0']
      (List.replicate (places - digits.length) '0' ++ digits) := by
  refine ⟨Or.inr rfl, List.cons_ne_nil _ _, digits_zeros 1, (digits_zeros _).append hdigits, ?_⟩
  have hcount : (List.replicate (places - digits.length) '0' ++ digits).length = places := by
    rw [List.length_append, List.length_replicate]
    omega
  rw [hcount]
  apply d.value_scaled _ hplaces
  have hleading : ['0'] ++ (List.replicate (places - digits.length) '0' ++ digits) =
      List.replicate (places - digits.length + 1) '0' ++ digits := rfl
  rw [hleading, Nat.ofDigitChars_append, Nat.ofDigitChars_replicate_zero, Nat.mul_zero, hvalue]

/-- The point stands among the digits. -/
theorem spelled_among_digits (hlong : places < digits.length) :
    Spelled d
      (digits.take (digits.length - places) ++ '.' :: digits.drop (digits.length - places))
      (digits.take (digits.length - places)) (digits.drop (digits.length - places)) := by
  refine ⟨Or.inr rfl, ?_, ?_, ?_, ?_⟩
  · rw [ne_eq, List.take_eq_nil_iff, not_or]
    exact ⟨by omega, hne⟩
  · exact fun c hc => hdigits c (List.mem_of_mem_take hc)
  · exact fun c hc => hdigits c (List.mem_of_mem_drop hc)
  · have hcount : (digits.drop (digits.length - places)).length = places := by
      rw [List.length_drop]
      omega
    rw [hcount, List.take_append_drop]
    exact d.value_scaled hvalue hplaces

end Spellings

/-- Every decimal is written so. -/
theorem spelled_positional (d : Decimal) :
    ∃ whole fraction, Spelled d (Layout.positional d).toList whole fraction := by
  have htext : (toString d.digits).toList = Nat.toDigits 10 d.digits := toList_toString_nat d.digits
  have hlength : (toString d.digits).length = (Nat.toDigits 10 d.digits).length := by
    rw [← String.length_toList, htext]
  have hvalue : Nat.ofDigitChars 10 (Nat.toDigits 10 d.digits) 0 = d.digits :=
    Nat.ofDigitChars_ten_toDigits
  have hdigits := digits_toDigits d.digits
  have hne : Nat.toDigits 10 d.digits ≠ [] := Nat.toDigits_ne_nil
  unfold Layout.positional
  dsimp only
  split
  · rename_i hwhole
    have hspelled := spelled_whole hdigits hne hvalue hwhole rfl
    have hcs : (toString d.digits ++
        if d.digits = 0 then "" else Layout.zeros d.exponent.toNat).toList =
        Nat.toDigits 10 d.digits ++
          List.replicate (if d.digits = 0 then 0 else d.exponent.toNat) '0' := by
      rw [String.toList_append, htext]
      split
      · rfl
      · rw [Layout.zeros, String.toList_ofList]
    exact ⟨_, _, hcs ▸ hspelled⟩
  · rename_i hfraction
    have hplaces : d.exponent = -((-d.exponent).toNat : ℤ) := by omega
    rw [hlength]
    split
    · rename_i hshort
      have hspelled := spelled_behind_zeros hdigits hvalue hplaces hshort
      simp only [String.toList_append, htext, Layout.zeros, String.toList_ofList]
      exact ⟨_, _, hspelled⟩
    · rename_i hlong
      have hspelled := spelled_among_digits hdigits hne hvalue hplaces (not_le.mp hlong)
      simp only [String.toList_append, htext, String.toList_ofList, List.append_assoc]
      exact ⟨_, _, hspelled⟩

namespace Numeral

/-- What is spelled with digits is read as a decimal of its value. -/
theorem magnitude_spelled {d : Decimal} {cs whole fraction : List Char}
    (h : Spelled d cs whole fraction) :
    ∃ read, magnitude? cs = some read ∧ read.value = d.value := by
  let read : Decimal := ⟨digitsValue 10 (whole ++ fraction), 0 - (fraction.length : ℤ)⟩
  have hvalue : read.value = d.value := by
    rw [← h.value, ← digitsValue_eq (h.before.append h.behind)]
    change ((digitsValue 10 (whole ++ fraction) : ℕ) : ℚ) * 10 ^ (0 - (fraction.length : ℤ)) = _
    rw [zero_sub]
  have hempty : whole.isEmpty = false := List.isEmpty_eq_false_iff.mpr h.nonempty
  refine ⟨read, ?_, hvalue⟩
  unfold magnitude?
  obtain ⟨rfl, rfl⟩ | rfl := h.text
  · simp only [h.before.takeWhile.1, h.before.takeWhile.2, hempty]
    rfl
  · simp only [(h.before.takeWhile_point fraction).1, (h.before.takeWhile_point fraction).2, hempty,
      h.behind.takeWhile.1, h.behind.takeWhile.2]
    rfl

/-- A word that begins with a letter is not spelled with digits. -/
theorem ne_word {c : Char} {cs : List Char} {word : String} (hc : isDigit c = true)
    (hword : word.toList.head?.any isDigit = false) :
    String.ofList ((c :: cs).map lowerAscii) ≠ word := by
  intro heq
  have hkept : lowerAscii c = c := by
    have hbounds := (is_digit_iff c).mp hc
    have hnot : ¬ ('A' ≤ c ∧ c ≤ 'Z') := by
      rw [Char.le_def, UInt32.le_iff_toNat_le]
      rintro ⟨hcapital, -⟩
      have hcode : 65 ≤ c.toNat := hcapital
      omega
    rw [lowerAscii, if_neg hnot]
  have hlist := congrArg String.toList heq
  rw [String.toList_ofList, List.map_cons, hkept] at hlist
  rw [← hlist, List.head?_cons, Option.any_some, hc] at hword
  cases hword

/-- The text of a decimal, with its sign, is read as a decimal of the same value. -/
theorem parse_positional (negative : Bool) (d : Decimal) :
    ∃ read, parse? (Layout.minus negative ++ Layout.positional d) = some (.decimal negative read) ∧
      read.value = d.value := by
  obtain ⟨whole, fraction, hspelled⟩ := spelled_positional d
  obtain ⟨read, hread, hvalue⟩ := magnitude_spelled hspelled
  refine ⟨read, ?_, hvalue⟩
  obtain ⟨c, rest, hcs⟩ : ∃ c rest, (Layout.positional d).toList = c :: rest := by
    obtain ⟨htext, -⟩ | htext := hspelled.text
    · rw [htext]
      exact List.exists_cons_of_ne_nil hspelled.nonempty
    · rw [htext]
      exact List.exists_cons_of_ne_nil (List.append_ne_nil_of_left_ne_nil hspelled.nonempty _)
  -- the first character is a digit, so neither a sign nor a word is read instead
  have hdigit : isDigit c = true := by
    obtain ⟨first, others, rfl⟩ := List.exists_cons_of_ne_nil hspelled.nonempty
    obtain ⟨htext, -⟩ | htext := hspelled.text
    · rw [hcs] at htext
      exact (List.cons.inj htext).1 ▸ hspelled.before first List.mem_cons_self
    · rw [hcs] at htext
      exact (List.cons.inj htext).1 ▸ hspelled.before first List.mem_cons_self
  have hsplit : splitSign (Layout.minus negative ++ Layout.positional d).toList =
      (negative, c :: rest) := by
    rw [String.toList_append, hcs]
    cases negative with
    | true => rfl
    | false => exact (Sector.split_sign_chars .absent hdigit rest).2
  unfold parse?
  rw [hsplit]
  dsimp only
  rw [if_neg (ne_word hdigit (by decide)), if_neg, ← hcs, hread]
  · rfl
  · rw [not_or]
    exact ⟨ne_word hdigit (by decide), ne_word hdigit (by decide)⟩

end Numeral

namespace Decimal

theorem digits_pos_of_value {d : Decimal} (h : 0 < d.value) : 0 < d.digits := by
  apply Nat.pos_of_ne_zero
  intro hzero
  rw [value, hzero, Nat.cast_zero, zero_mul] at h
  exact lt_irrefl _ h

/-- A decimal lies between the powers of ten of its first place and the one before it. -/
theorem order_bounds {d : Decimal} (hdigits : 0 < d.digits) :
    (10 : ℚ) ^ ((decimalWidth d.digits : ℤ) + d.exponent - 1) ≤ d.value ∧
      d.value < 10 ^ ((decimalWidth d.digits : ℤ) + d.exponent) := by
  obtain ⟨hwide, hfrom, hto⟩ := width_bounds hdigits
  have hpower : (0 : ℚ) < 10 ^ d.exponent := by positivity
  have hlow : (10 : ℚ) ^ (decimalWidth d.digits - 1) ≤ d.digits := by exact_mod_cast hfrom
  have hhigh : (d.digits : ℚ) < 10 ^ decimalWidth d.digits := by exact_mod_cast hto
  have hexponent : (decimalWidth d.digits : ℤ) + d.exponent - 1 =
      ((decimalWidth d.digits - 1 : ℕ) : ℤ) + d.exponent := by omega
  constructor
  · calc (10 : ℚ) ^ ((decimalWidth d.digits : ℤ) + d.exponent - 1)
        = 10 ^ (decimalWidth d.digits - 1) * 10 ^ d.exponent := by
          rw [hexponent, zpow_add₀ (by norm_num), zpow_natCast]
      _ ≤ d.value := mul_le_mul_of_nonneg_right hlow hpower.le
  · calc d.value < 10 ^ decimalWidth d.digits * 10 ^ d.exponent :=
          mul_lt_mul_of_pos_right hhigh hpower
      _ = 10 ^ ((decimalWidth d.digits : ℤ) + d.exponent) := by
          rw [zpow_add₀ (by norm_num), zpow_natCast]

/-- A decimal in proportion is read as the ratio that it is. -/
theorem ratio_of_value {d : Decimal} (hlow : (10 : ℚ) ^ (-100 : ℤ) ≤ d.value)
    (hhigh : d.value ≤ 10 ^ (100 : ℤ)) :
    0 < d.ratio.1 ∧ 0 < d.ratio.2 ∧ (d.ratio.1 : ℚ) / d.ratio.2 = d.value := by
  have hdigits := digits_pos_of_value (lt_of_lt_of_le (by positivity) hlow)
  obtain ⟨hfrom, hto⟩ := order_bounds hdigits
  have hten : (1 : ℚ) < 10 := by norm_num
  have horder := (zpow_le_zpow_iff_right₀ hten).mp (hfrom.trans hhigh)
  have horder' := (zpow_lt_zpow_iff_right₀ hten).mp (hlow.trans_lt hto)
  have hratio : d.ratio =
      (d.digits * Nat.pow 10 d.exponent.toNat, Nat.pow 10 (-d.exponent).toNat) := by
    unfold ratio
    dsimp only
    rw [if_neg hdigits.ne', if_neg (by omega), if_neg (by omega)]
  rw [hratio]
  refine ⟨Nat.mul_pos hdigits (Nat.pow_pos (by norm_num)), Nat.pow_pos (by norm_num), ?_⟩
  rw [value, ten_zpow_eq]
  push_cast
  ring

theorem ratio_of_zero {d : Decimal} (h : d.value = 0) : d.ratio = (0, 1) := by
  have hzero : d.digits = 0 := by
    by_contra hne
    have hpos : (0 : ℚ) < d.digits * 10 ^ d.exponent := by positivity
    exact hpos.ne' h
  unfold ratio
  dsimp only
  rw [if_pos hzero]

end Decimal

end ScenarioHost
