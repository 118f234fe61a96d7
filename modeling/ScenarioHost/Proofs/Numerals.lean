import Mathlib.Tactic
import ScenarioHost.Decimal.Layout
import ScenarioHost.Decimal.Numeral

/-!
Texts of numbers. The text of a natural number is made of digits alone, and reading them gives the
number back. Those of other numbers have no characters either that take more than one byte.
-/
namespace ScenarioHost

theorem is_digit_iff (c : Char) : isDigit c = true ↔ 48 ≤ c.toNat ∧ c.toNat ≤ 57 := by
  simp only [isDigit, Bool.and_eq_true, decide_eq_true_eq, Char.le_def, UInt32.le_iff_toNat_le]
  exact Iff.rfl

theorem toList_toString_nat (n : Nat) : (toString n).toList = Nat.toDigits 10 n := by
  rw [Nat.toString_eq_repr, Nat.toList_repr]

/-- The text of an integer: digits, and a minus sign before them for a negative one. -/
theorem toList_toString_int (i : Int) :
    (toString i).toList = (if i < 0 then ['-'] else []) ++ Nat.toDigits 10 i.natAbs := by
  rw [Int.toString_eq_repr, Int.repr_eq_if]
  by_cases hi : i < 0
  · have habs : (-i).toNat = i.natAbs := by omega
    rw [if_neg (by omega), if_pos hi, String.toList_append, Nat.toList_repr, habs]
    rfl
  · have habs : i.toNat = i.natAbs := by omega
    rw [if_pos (by omega), if_neg hi, Nat.toList_repr, habs, List.nil_append]

theorem is_digit_of_mem_toDigits {n : Nat} {c : Char} (h : c ∈ Nat.toDigits 10 n) :
    isDigit c = true := by
  have hdigit : c.isDigit = true := Nat.isDigit_of_mem_toDigits (by decide) (by decide) h
  rw [is_digit_iff]
  simp only [Char.isDigit, Bool.and_eq_true, decide_eq_true_eq, ge_iff_le,
    UInt32.le_iff_toNat_le] at hdigit
  exact hdigit

theorem digit_value_of_is_digit {c : Char} (h : isDigit c = true) :
    digitValue? 10 c = some (c.toNat - 48) := by
  have hbounds := (is_digit_iff c).mp h
  simp only [isDigit, Bool.and_eq_true, decide_eq_true_eq] at h
  have hvalue : c.toNat - 48 < 10 := by omega
  unfold digitValue?
  dsimp only
  rw [if_pos h, if_pos hvalue]

/-- Digits are read from the left, each of them worth ten times the next one. -/
theorem digits_value_eq {cs : List Char} (h : ∀ c ∈ cs, isDigit c = true) (n : Nat) :
    cs.foldl (fun n c => n * 10 + (digitValue? 10 c).getD 0) n = Nat.ofDigitChars 10 cs n := by
  induction cs generalizing n with
  | nil => rw [List.foldl_nil, Nat.ofDigitChars_nil]
  | cons c cs ih =>
    have hc : digitValue? 10 c = some (c.toNat - 48) :=
      digit_value_of_is_digit (h c List.mem_cons_self)
    rw [List.foldl_cons, hc, Option.getD_some, ih fun d hd => h d (List.mem_cons_of_mem c hd),
      Nat.ofDigitChars_cons, Nat.mul_comm]
    rfl

theorem digits_value_toDigits (n : Nat) : digitsValue 10 (Nat.toDigits 10 n) = n := by
  unfold digitsValue
  rw [digits_value_eq (fun c hc => is_digit_of_mem_toDigits hc), Nat.ofDigitChars_ten_toDigits]

/-- More digits never make a number smaller. -/
theorem le_of_digit_chars (cs : List Char) (n : Nat) : n ≤ Nat.ofDigitChars 10 cs n := by
  induction cs generalizing n with
  | nil => rw [Nat.ofDigitChars_nil]
  | cons c cs ih =>
    rw [Nat.ofDigitChars_cons]
    have hstep : n ≤ 10 * n + (c.toNat - '0'.toNat) := by omega
    exact hstep.trans (ih _)

/-- A whole number without a sign is read from the text that is written for it. -/
theorem parse_whole_toString (n high : Nat) (h : n ≤ high) :
    parseWhole 0 high (toString n) = .ok n := by
  have hdigits : ∀ c ∈ Nat.toDigits 10 n, isDigit c = true := fun c hc => is_digit_of_mem_toDigits hc
  have hvalue : digitsValue 10 (Nat.toDigits 10 n) = n := digits_value_toDigits n
  have hempty : (Nat.toDigits 10 n).isEmpty = false := List.isEmpty_eq_false_iff.mpr Nat.toDigits_ne_nil
  have hall : (Nat.toDigits 10 n).all isDigit = true := List.all_eq_true.mpr hdigits
  unfold parseWhole
  rw [toList_toString_nat]
  generalize Nat.toDigits 10 n = cs at hdigits hvalue hempty hall
  dsimp only
  -- no digit is a sign
  split
  · exact absurd (hdigits '+' List.mem_cons_self) (by decide)
  · exact absurd (hdigits '-' List.mem_cons_self) (by decide)
  · rw [if_neg (by rw [hempty]; decide), if_neg (by rw [hall]; decide), hvalue]
    have hlow : ¬ (n : Int) < 0 := by omega
    have hhigh : ¬ (high : Int) < n := by omega
    simp only [Bool.false_eq_true, if_false, hlow, hhigh]

/-! Texts of numbers. -/

def Ascii (cs : List Char) : Prop := ∀ c ∈ cs, c.toNat < 0x80

instance (cs : List Char) : Decidable (Ascii cs) :=
  decidable_of_iff (cs.all fun c => c.toNat < 0x80) (by simp [Ascii])

namespace Ascii

theorem append {first second : List Char} (h : Ascii first) (h' : Ascii second) :
    Ascii (first ++ second) := by
  intro c hc
  exact (List.mem_append.mp hc).elim (h c) (h' c)

theorem cons {c : Char} {cs : List Char} (h : c.toNat < 0x80) (h' : Ascii cs) : Ascii (c :: cs) :=
  List.forall_mem_cons.mpr ⟨h, h'⟩

theorem subset {first second : List Char} (h : Ascii second) (hsubset : first ⊆ second) :
    Ascii first := fun c hc => h c (hsubset hc)

theorem replicate (n : Nat) {c : Char} (h : c.toNat < 0x80) : Ascii (List.replicate n c) := by
  intro d hd
  rwa [List.eq_of_mem_replicate hd]

theorem toString_append {s t : String} (h : Ascii s.toList) (h' : Ascii t.toList) :
    Ascii (s ++ t).toList := by
  rw [String.toList_append]
  exact h.append h'

theorem ofList {cs : List Char} (h : Ascii cs) : Ascii (String.ofList cs).toList := by
  rwa [String.toList_ofList]

theorem digits (n : Nat) : Ascii (toString n).toList := by
  intro c hc
  rw [toList_toString_nat] at hc
  have hdigit := (is_digit_iff c).mp (is_digit_of_mem_toDigits hc)
  omega

theorem zeros (n : Nat) : Ascii (Layout.zeros n).toList := ofList (replicate n (by decide))

theorem minus (negative : Bool) : Ascii (Layout.minus negative).toList := by
  cases negative <;> decide

theorem pointed {digits : List Char} (h : Ascii digits) : Ascii (Layout.pointed digits).toList := by
  cases digits with
  | nil => decide
  | cons c rest =>
    obtain ⟨hc, hrest⟩ := List.forall_mem_cons.mp h
    cases rest with
    | nil => exact ofList h
    | cons d rest => exact ofList (cons hc (cons (by decide) hrest))

theorem exponentText (e : Int) : Ascii (NumberStyle.exponentText e).toList := by
  have hsign : Ascii (if e < 0 then "-" else "+").toList := by
    split <;> decide
  have hzero : Ascii (if (toString e.natAbs).length < 2 then "0" else "").toList := by
    split <;> decide
  have hmark : Ascii "e".toList := by decide
  exact (hmark.toString_append hsign).toString_append hzero |>.toString_append (digits e.natAbs)

theorem scaled (count num den : Nat) : Ascii (NumberStyle.scaled count num den).1 := by
  unfold NumberStyle.scaled
  split
  · exact replicate count (by decide)
  · exact digits _

theorem dropZeros {digits : List Char} (h : Ascii digits) : Ascii (NumberStyle.dropZeros digits) := by
  unfold NumberStyle.dropZeros
  intro c hc
  have hdropped := (List.dropWhile_suffix _).subset (List.mem_reverse.mp hc)
  exact h c (List.mem_reverse.mp hdropped)

theorem generalBody (s : NumberStyle) (num den : Nat) : Ascii (s.generalBody num den).toList := by
  unfold NumberStyle.generalBody
  dsimp only
  have hdigits := scaled (max s.precision 1) num den
  generalize NumberStyle.scaled (max s.precision 1) num den = r at hdigits
  obtain ⟨digits, e⟩ := r
  dsimp only at hdigits ⊢
  have hkept : Ascii (if s.alternate = true then digits else NumberStyle.dropZeros digits) := by
    split
    · exact hdigits
    · exact hdigits.dropZeros
  generalize (if s.alternate = true then digits else NumberStyle.dropZeros digits) = kept at hkept
  -- with an exponent, below one, and with a whole part
  split
  · have hshown : Ascii (if kept.isEmpty then ['0'] else kept) := by
      split
      · decide
      · exact hkept
    exact (pointed hshown).toString_append (exponentText e)
  · split
    · have hzero : Ascii "0.".toList := by decide
      exact (hzero.toString_append (zeros _)).toString_append (ofList hkept)
    · refine (ofList (hdigits.subset (List.take_subset _ _))).toString_append ?_
      split
      · decide
      · have hpoint : Ascii ".".toList := by decide
        exact hpoint.toString_append (ofList (hkept.subset (List.drop_subset _ _)))

/-- Numbers are written in characters that are bytes of their own. -/
theorem generalText (x : Float) : Ascii (generalText x).toList := by
  have hbody (r : Reading) : Ascii (NumberStyle.body ⟨14, false⟩ 'g' r).toList := by
    cases r with
    | nan => decide
    | infinite negative => exact (by decide : Ascii "inf".toList)
    | finite negative m q => exact generalBody _ _ _
  exact toString_append (minus _) (hbody _)

end Ascii

end ScenarioHost
