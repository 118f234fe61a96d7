import Mathlib
import ScenarioHost.Binary.Single
import ScenarioHost.Proofs.WholeDoubles

/-!
Rounding to a binary format, in exact numbers. What a ratio is rounded to has room in the format and
is no farther from the ratio than any other number that has. The bits that rounding gives are read
as that number again, as long as it is below the infinities.
-/
namespace ScenarioHost

theorem two_zpow_eq (q : ℤ) :
    (2 : ℚ) ^ q = (Nat.pow 2 q.toNat : ℕ) / (Nat.pow 2 (-q).toNat : ℕ) := by
  have hsplit : (2 : ℚ) ^ q = 2 ^ ((q.toNat : ℤ) - ((-q).toNat : ℤ)) := by
    rw [Int.toNat_sub_toNat_neg]
  rw [hsplit, zpow_sub₀ (by norm_num), zpow_natCast, zpow_natCast, Nat.pow_eq, Nat.pow_eq]
  push_cast
  rfl

theorem pow_mul_zpow (n : ℕ) (q : ℤ) : ((2 ^ n : ℕ) : ℚ) * 2 ^ q = 2 ^ ((n : ℤ) + q) := by
  rw [zpow_add₀ (by norm_num), zpow_natCast]
  push_cast
  rfl

/-- A power of two is compared with a ratio without leaving the natural numbers. -/
theorem scaled_le_iff {num den : ℕ} (hden : 0 < den) (e : ℤ) :
    den * Nat.pow 2 e.toNat ≤ num * Nat.pow 2 (-e).toNat ↔ (2 : ℚ) ^ e ≤ num / den := by
  have hden' : (0 : ℚ) < den := by exact_mod_cast hden
  have hpos : (0 : ℚ) < (Nat.pow 2 (-e).toNat : ℕ) := by
    exact_mod_cast Nat.two_pow_pos (-e).toNat
  rw [two_zpow_eq, div_le_div_iff₀ hpos hden', mul_comm ((Nat.pow 2 e.toNat : ℕ) : ℚ)]
  exact_mod_cast Iff.rfl

theorem log_bounds {n : ℕ} (hn : 0 < n) :
    (2 : ℚ) ^ (n.log2 : ℤ) ≤ n ∧ (n : ℚ) < 2 ^ ((n.log2 : ℤ) + 1) := by
  have hhigh : n < 2 ^ (n.log2 + 1) := Nat.lt_log2_self
  constructor
  · rw [zpow_natCast]
    exact_mod_cast Nat.log2_self_le hn.ne'
  · exact_mod_cast hhigh

/-- The binary order of a ratio. -/
theorem floor_log_bounds {num den : ℕ} (hnum : 0 < num) (hden : 0 < den) :
    (2 : ℚ) ^ floorLog2 num den ≤ num / den ∧ (num / den : ℚ) < 2 ^ (floorLog2 num den + 1) := by
  have hden' : (0 : ℚ) < den := by exact_mod_cast hden
  obtain ⟨hnumlow, hnumhigh⟩ := log_bounds hnum
  obtain ⟨hdenlow, hdenhigh⟩ := log_bounds hden
  have htwo : (2 : ℚ) ≠ 0 := by norm_num
  -- the difference of the orders is right, or one too large
  have hhigh : (num / den : ℚ) < 2 ^ ((num.log2 : ℤ) - den.log2 + 1) := by
    rw [div_lt_iff₀ hden']
    calc (num : ℚ) < 2 ^ ((num.log2 : ℤ) + 1) := hnumhigh
      _ = 2 ^ ((num.log2 : ℤ) - den.log2 + 1) * 2 ^ (den.log2 : ℤ) := by
          rw [← zpow_add₀ htwo]
          congr 1
          ring
      _ ≤ 2 ^ ((num.log2 : ℤ) - den.log2 + 1) * den :=
          mul_le_mul_of_nonneg_left hdenlow (by positivity)
  have hlow : (2 : ℚ) ^ ((num.log2 : ℤ) - den.log2 - 1) ≤ num / den := by
    rw [le_div_iff₀ hden']
    calc (2 : ℚ) ^ ((num.log2 : ℤ) - den.log2 - 1) * den
        ≤ 2 ^ ((num.log2 : ℤ) - den.log2 - 1) * 2 ^ ((den.log2 : ℤ) + 1) :=
          mul_le_mul_of_nonneg_left hdenhigh.le (by positivity)
      _ = 2 ^ (num.log2 : ℤ) := by
          rw [← zpow_add₀ htwo]
          congr 1
          ring
      _ ≤ num := hnumlow
  unfold floorLog2
  dsimp only
  split
  case isTrue h => exact ⟨(scaled_le_iff hden _).mp h, hhigh⟩
  case isFalse h =>
    refine ⟨hlow, ?_⟩
    rw [sub_add_cancel]
    exact lt_of_not_ge fun hle => h ((scaled_le_iff hden _).mpr hle)

/-- No natural number is nearer to a ratio than the nearest one. -/
theorem nearest_even_error (num j : ℕ) {den : ℕ} (hden : 0 < den) :
    |(nearestEven num den : ℚ) - num / den| ≤ |(j : ℚ) - num / den| := by
  have hden' : (0 : ℚ) < den := by exact_mod_cast hden
  have hclosest := nearest_even_closest num den j hden
  have hscaled (m : ℕ) : |(m : ℚ) - num / den| * den = ((num : ℤ) - (m * den : ℕ)).natAbs := by
    rw [Nat.cast_natAbs, Int.cast_abs, ← abs_of_pos hden', ← abs_mul, abs_of_pos hden', sub_mul,
      div_mul_cancel₀ _ hden'.ne', abs_sub_comm]
    push_cast
    rfl
  refine le_of_mul_le_mul_right ?_ hden'
  rw [hscaled, hscaled]
  exact_mod_cast hclosest

theorem le_nearest_even {num den j : ℕ} (hden : 0 < den) (h : (j : ℚ) ≤ num / den) :
    j ≤ nearestEven num den := by
  by_contra hlt
  have herror := nearest_even_error num j hden
  have hstep : (nearestEven num den : ℚ) + 1 ≤ j := by exact_mod_cast not_le.mp hlt
  rw [abs_of_nonpos (by linarith), abs_of_nonpos (by linarith)] at herror
  linarith

theorem nearest_even_le {num den j : ℕ} (hden : 0 < den) (h : (num / den : ℚ) ≤ j) :
    nearestEven num den ≤ j := by
  by_contra hlt
  have herror := nearest_even_error num j hden
  have hstep : (j : ℚ) + 1 ≤ nearestEven num den := by exact_mod_cast not_le.mp hlt
  rw [abs_of_nonneg (by linarith), abs_of_nonneg (by linarith)] at herror
  linarith

/-- A half goes to zero. -/
theorem nearest_even_of_half {num den : ℕ} (hden : 0 < den) (h : num * 2 ≤ den) :
    nearestEven num den = 0 := by
  have hlt : num < den := by omega
  unfold nearestEven
  dsimp only
  rw [Nat.div_eq_of_lt hlt, Nat.mod_eq_of_lt hlt]
  split
  · rfl
  · rw [if_neg (by omega)]

namespace Reading

def value? : Reading → Option ℚ
  | .finite negative m q => some (scaled negative m * 2 ^ q)
  | _ => none

theorem scaled_cast (negative : Bool) (m : ℕ) :
    (scaled negative m : ℚ) = if negative then -(m : ℚ) else m := by
  unfold scaled
  cases negative with
  | true =>
    rw [if_pos rfl, if_pos rfl]
    push_cast
    rfl
  | false =>
    rw [if_neg Bool.false_ne_true, if_neg Bool.false_ne_true]
    push_cast
    rfl

theorem exists_of_value {r : Reading} {v : ℚ} (h : r.value? = some v) :
    ∃ negative m q, r = .finite negative m q := by
  cases r with
  | finite negative m q => exact ⟨negative, m, q, rfl⟩
  | _ => cases h

section Finite

variable {negative : Bool} {m : ℕ} {q : ℤ} {v : ℚ}

theorem abs_value (h : (finite negative m q).value? = some v) : |v| = m * 2 ^ q := by
  obtain rfl : (scaled negative m : ℚ) * 2 ^ q = v := Option.some.inj h
  rw [abs_mul, abs_of_pos (a := (2 : ℚ) ^ q) (by positivity), scaled_cast]
  split
  · rw [abs_neg, Nat.abs_cast]
  · rw [Nat.abs_cast]

theorem value_neg_iff (h : (finite negative m q).value? = some v) :
    v < 0 ↔ negative = true ∧ 0 < m := by
  obtain rfl : (scaled negative m : ℚ) * 2 ^ q = v := Option.some.inj h
  have hq : (0 : ℚ) < 2 ^ q := by positivity
  rw [scaled_cast]
  cases negative with
  | true => simp [hq]
  | false => simpa using mul_nonneg m.cast_nonneg hq.le

end Finite

/-- The floor taken with integers is that of the exact number. -/
theorem floor_eq {r : Reading} {v : ℚ} (h : r.value? = some v) : r.floor? = some ⌊v⌋ := by
  cases r with
  | finite negative m q =>
    obtain rfl : scaled negative m * 2 ^ q = v := Option.some.inj h
    have hdivision : (scaled negative m * 2 ^ q : ℚ) =
        ((scaled negative m * (Nat.pow 2 q.toNat : ℕ) : ℤ) : ℚ) / (Nat.pow 2 (-q).toNat : ℕ) := by
      rw [two_zpow_eq]
      push_cast
      ring
    rw [hdivision, Rat.floor_intCast_div_natCast, ← Int.fdiv_eq_ediv_of_nonneg _ (by positivity)]
    rfl
  | _ => cases h

end Reading

namespace Format

variable (f : Format)

def Represents (v : ℚ) : Prop :=
  ∃ (m : ℕ) (q : ℤ), m ≤ 2 ^ (f.significandBits + 1) ∧ f.least ≤ q ∧ v = m * 2 ^ q

def significand (num den : ℕ) : ℕ :=
  let q := f.lastBit (floorLog2 num den)
  nearestEven (num * Nat.pow 2 (-q).toNat) (den * Nat.pow 2 q.toNat)

def rounded (num den : ℕ) : ℚ := f.significand num den * 2 ^ f.lastBit (floorLog2 num den)

variable {f}

theorem represents_nat {n : ℕ} (hleast : f.least ≤ 0) (h : n ≤ 2 ^ (f.significandBits + 1)) :
    f.Represents n := ⟨n, 0, h, hleast, by rw [zpow_zero, mul_one]⟩

/-- On a grid of step `2 ^ s` a number of the format is a point, or no larger than the smallest full
significand of steps. -/
theorem Represents.multiple_or_le {v : ℚ} (hv : f.Represents v) (s : ℤ) :
    (∃ j : ℕ, v = j * 2 ^ s) ∨ (f.least < s ∧ v ≤ (2 ^ f.significandBits : ℕ) * 2 ^ s) := by
  obtain ⟨m, q, hm, hq, rfl⟩ := hv
  by_cases hle : s ≤ q
  · obtain ⟨k, hk⟩ := Int.eq_ofNat_of_zero_le (sub_nonneg.mpr hle)
    refine Or.inl ⟨m * 2 ^ k, ?_⟩
    have hsum : q = k + s := by omega
    rw [hsum, zpow_add₀ (by norm_num), zpow_natCast]
    push_cast
    ring
  · refine Or.inr ⟨by omega, ?_⟩
    calc (m : ℚ) * 2 ^ q ≤ ((2 ^ (f.significandBits + 1) : ℕ) : ℚ) * 2 ^ q :=
          mul_le_mul_of_nonneg_right (by exact_mod_cast hm) (by positivity)
      _ = 2 ^ (((f.significandBits + 1 : ℕ) : ℤ) + q) := pow_mul_zpow ..
      _ ≤ 2 ^ ((f.significandBits : ℤ) + s) :=
          zpow_le_zpow_right₀ (by norm_num) (by push_cast; omega)
      _ = ((2 ^ f.significandBits : ℕ) : ℚ) * 2 ^ s := (pow_mul_zpow ..).symm

/-- Below a point of the grid that is far enough out there is a gap of a step. -/
theorem Represents.le_pred {v : ℚ} (hv : f.Represents v) {n : ℕ} {s : ℤ}
    (hn : 2 ^ f.significandBits < n) (h : v < n * 2 ^ s) : v ≤ (n - 1) * 2 ^ s := by
  have hpos : (0 : ℚ) < 2 ^ s := by positivity
  obtain ⟨j, rfl⟩ | ⟨-, hsmall⟩ := hv.multiple_or_le s
  · have hj : (j : ℚ) + 1 ≤ n := by
      exact_mod_cast lt_of_mul_lt_mul_right h hpos.le
    exact mul_le_mul_of_nonneg_right (by linarith) hpos.le
  · have hn' : ((2 ^ f.significandBits : ℕ) : ℚ) + 1 ≤ n := by exact_mod_cast hn
    exact hsmall.trans (mul_le_mul_of_nonneg_right (by linarith) hpos.le)

/-- Above such a point there is one too. -/
theorem Represents.succ_le {v : ℚ} (hv : f.Represents v) {n : ℕ} {s : ℤ}
    (hn : 2 ^ f.significandBits ≤ n) (h : n * 2 ^ s < v) : (n + 1) * 2 ^ s ≤ v := by
  have hpos : (0 : ℚ) < 2 ^ s := by positivity
  obtain ⟨j, rfl⟩ | ⟨-, hsmall⟩ := hv.multiple_or_le s
  · have hj : (n : ℚ) + 1 ≤ j := by
      exact_mod_cast lt_of_mul_lt_mul_right h hpos.le
    exact mul_le_mul_of_nonneg_right hj hpos.le
  · have hn' : ((2 ^ f.significandBits : ℕ) : ℚ) ≤ n := by exact_mod_cast hn
    have hbelow := hsmall.trans (mul_le_mul_of_nonneg_right hn' hpos.le)
    exact absurd h (not_lt.mpr hbelow)

theorem significand_pos_den {den : ℕ} (hden : 0 < den) (q : ℤ) : 0 < den * Nat.pow 2 q.toNat :=
  Nat.mul_pos hden (Nat.two_pow_pos _)

/-- A ratio in units of its last bit. -/
theorem units_eq (num den : ℕ) (q : ℤ) :
    ((num * Nat.pow 2 (-q).toNat : ℕ) : ℚ) / (den * Nat.pow 2 q.toNat : ℕ) = num / den / 2 ^ q := by
  rw [two_zpow_eq]
  push_cast
  rw [div_div_div_eq, mul_comm]

section Bounds

variable {num den : ℕ}

theorem least_le_lastBit (e : ℤ) : f.least ≤ f.lastBit e := le_max_right ..

theorem significand_le (hnum : 0 < num) (hden : 0 < den) :
    f.significand num den ≤ 2 ^ (f.significandBits + 1) := by
  obtain ⟨-, hhigh⟩ := floor_log_bounds hnum hden
  have hq : floorLog2 num den - f.significandBits ≤ f.lastBit (floorLog2 num den) := le_max_left ..
  refine nearest_even_le (significand_pos_den hden _) ?_
  rw [units_eq, div_le_iff₀ (by positivity)]
  calc (num / den : ℚ) ≤ 2 ^ (floorLog2 num den + 1) := hhigh.le
    _ ≤ 2 ^ (((f.significandBits + 1 : ℕ) : ℤ) + f.lastBit (floorLog2 num den)) :=
        zpow_le_zpow_right₀ (by norm_num) (by push_cast; omega)
    _ = _ := (pow_mul_zpow ..).symm

/-- Above the smallest magnitudes a significand has its full width. -/
theorem le_significand (hnum : 0 < num) (hden : 0 < den)
    (hq : f.lastBit (floorLog2 num den) ≠ f.least) :
    2 ^ f.significandBits ≤ f.significand num den := by
  obtain ⟨hlow, -⟩ := floor_log_bounds hnum hden
  have hbit : f.lastBit (floorLog2 num den) = floorLog2 num den - f.significandBits := by
    unfold lastBit at hq ⊢
    omega
  refine le_nearest_even (significand_pos_den hden _) ?_
  rw [units_eq, le_div_iff₀ (by positivity)]
  calc ((2 ^ f.significandBits : ℕ) : ℚ) * 2 ^ f.lastBit (floorLog2 num den)
      = 2 ^ floorLog2 num den := by
        rw [pow_mul_zpow, hbit, add_sub_cancel]
    _ ≤ num / den := hlow

theorem rounded_zero (den : ℕ) (hden : 0 < den) : f.rounded 0 den = 0 := by
  have hzero : f.significand 0 den = 0 := by
    refine Nat.le_zero.mp (nearest_even_le (significand_pos_den hden _) ?_)
    simp
  rw [rounded, hzero, Nat.cast_zero, zero_mul]

/-- Among the multiples of the last bit none is nearer. -/
theorem rounded_error (num : ℕ) (hden : 0 < den) (j : ℕ) :
    |f.rounded num den - num / den| ≤
      |(j : ℚ) * 2 ^ f.lastBit (floorLog2 num den) - num / den| := by
  have hpos : (0 : ℚ) < 2 ^ f.lastBit (floorLog2 num den) := by positivity
  have hunits (m : ℕ) : |(m : ℚ) * 2 ^ f.lastBit (floorLog2 num den) - num / den| =
      |(m : ℚ) - num / den / 2 ^ f.lastBit (floorLog2 num den)| *
        2 ^ f.lastBit (floorLog2 num den) := by
    rw [← abs_of_pos hpos, ← abs_mul, abs_of_pos hpos, sub_mul, div_mul_cancel₀ _ hpos.ne']
  have herror := nearest_even_error (num * Nat.pow 2 (-f.lastBit (floorLog2 num den)).toNat) j
    (significand_pos_den hden (f.lastBit (floorLog2 num den)))
  rw [units_eq] at herror
  rw [rounded, hunits, hunits]
  exact mul_le_mul_of_nonneg_right herror hpos.le

/-- No number that the format has room for is nearer. -/
theorem rounded_closest (hnum : 0 < num) (hden : 0 < den) {v : ℚ} (hv : f.Represents v) :
    |f.rounded num den - num / den| ≤ |v - num / den| := by
  obtain ⟨j, rfl⟩ | ⟨hle, hsmall⟩ := hv.multiple_or_le (f.lastBit (floorLog2 num den))
  · exact rounded_error num hden j
  · -- a number with smaller bits is too small, and there is a multiple between
    obtain ⟨hlow, -⟩ := floor_log_bounds hnum hden
    have hbit : f.lastBit (floorLog2 num den) = floorLog2 num den - f.significandBits := by
      unfold lastBit at hle ⊢
      omega
    have hbetween : ((2 ^ f.significandBits : ℕ) : ℚ) * 2 ^ f.lastBit (floorLog2 num den) =
        2 ^ floorLog2 num den := by
      rw [pow_mul_zpow, hbit, add_sub_cancel]
    have herror := rounded_error (f := f) num hden (2 ^ f.significandBits)
    rw [hbetween] at herror hsmall
    rw [abs_of_nonpos (a := (2 : ℚ) ^ floorLog2 num den - num / den) (by linarith)] at herror
    rw [abs_of_nonpos (a := v - num / den) (by linarith)]
    linarith

theorem rounded_exact (hnum : 0 < num) (hden : 0 < den) (h : f.Represents (num / den)) :
    f.rounded num den = num / den := by
  have hclosest := rounded_closest hnum hden h
  rw [sub_self, abs_zero] at hclosest
  exact sub_eq_zero.mp (abs_nonpos_iff.mp hclosest)

theorem le_rounded (hnum : 0 < num) (hden : 0 < den) {v : ℚ} (hv : f.Represents v)
    (h : v ≤ num / den) : v ≤ f.rounded num den := by
  have hclosest := rounded_closest hnum hden hv
  rw [abs_of_nonpos (a := v - num / den) (by linarith), abs_le] at hclosest
  linarith [hclosest.1]

theorem rounded_le (hnum : 0 < num) (hden : 0 < den) {v : ℚ} (hv : f.Represents v)
    (h : num / den ≤ v) : f.rounded num den ≤ v := by
  have hclosest := rounded_closest hnum hden hv
  rw [abs_of_nonneg (a := v - num / den) (by linarith), abs_le] at hclosest
  linarith [hclosest.2]

/-- A ratio vanishes if it is at most half of the smallest magnitude. -/
theorem rounded_eq_zero_iff (hnum : 0 < num) (hden : 0 < den) :
    f.rounded num den = 0 ↔ (num / den : ℚ) ≤ 2 ^ (f.least - 1) := by
  have hleast : (2 : ℚ) ^ f.least = 2 ^ (f.least - 1) * 2 := by
    rw [← zpow_add_one₀ (by norm_num), sub_add_cancel]
  have hpos : (0 : ℚ) < num / den := by positivity
  constructor
  · -- else the smallest number above zero would be closer
    intro hzero
    have hsmallest : f.Represents (2 ^ f.least) :=
      ⟨1, f.least, Nat.one_le_two_pow, le_refl _, by rw [Nat.cast_one, one_mul]⟩
    have hclosest := rounded_closest hnum hden hsmallest
    rw [hzero, zero_sub, abs_neg, abs_of_pos hpos] at hclosest
    by_contra hlt
    obtain ⟨habs, -⟩ | ⟨habs, -⟩ := abs_cases ((2 : ℚ) ^ f.least - num / den)
    · linarith
    · have hbit : (0 : ℚ) < 2 ^ (f.least - 1) := by positivity
      linarith
  · -- in units of the last place the ratio is at most a half, and zero is even
    intro hle
    obtain ⟨hlow, -⟩ := floor_log_bounds hnum hden
    have horder : floorLog2 num den ≤ f.least - 1 :=
      (zpow_le_zpow_iff_right₀ (by norm_num)).mp (hlow.trans hle)
    have hbit : f.lastBit (floorLog2 num den) = f.least := by
      unfold lastBit
      omega
    have hden' := significand_pos_den hden f.least
    have hhalf : ((num * Nat.pow 2 (-f.least).toNat : ℕ) : ℚ) * 2 ≤
        (den * Nat.pow 2 f.least.toNat : ℕ) := by
      have hunits := units_eq num den f.least
      rw [div_eq_iff (by exact_mod_cast hden'.ne')] at hunits
      have hratio : (num / den : ℚ) / 2 ^ f.least * 2 ≤ 1 := by
        rw [hleast, div_mul_eq_mul_div, div_le_one (by positivity)]
        exact mul_le_mul_of_nonneg_right hle (by norm_num)
      rw [hunits, mul_right_comm]
      exact mul_le_of_le_one_left (Nat.cast_nonneg _) hratio
    have hsignificand : f.significand num den = 0 := by
      unfold significand
      dsimp only
      rw [hbit]
      exact nearest_even_of_half hden' (by exact_mod_cast hhalf)
    rw [rounded, hsignificand, Nat.cast_zero, zero_mul]

end Bounds

/-! Bits. -/

theorem exponent_lt {c : ℕ} (hc : c < f.infinity) :
    c / 2 ^ f.significandBits < 2 ^ f.exponentBits - 1 := Nat.div_lt_of_lt_mul (by rwa [mul_comm])

/-- The fields of a pattern are the sign, and the two parts of the code. -/
theorem read_signed {c : ℕ} (negative : Bool) (hc : c < f.infinity) :
    f.read (f.signed negative c) =
      if c / 2 ^ f.significandBits = 0 then .finite negative c f.least
      else .finite negative (2 ^ f.significandBits + c % 2 ^ f.significandBits)
        (f.least + (c / 2 ^ f.significandBits - 1 : ℕ)) := by
  have hexponent := exponent_lt hc
  have hbounded : c / 2 ^ f.significandBits < 2 ^ f.exponentBits :=
    hexponent.trans_le (Nat.sub_le ..)
  have hsign : f.signBit = 2 ^ f.significandBits * 2 ^ f.exponentBits := by
    rw [signBit, Nat.pow_eq, pow_add, mul_comm]
  have hbelow : c < f.signBit := by
    rw [hsign]
    exact (Nat.div_lt_iff_lt_mul (by positivity)).mp hbounded |>.trans_eq (mul_comm ..)
  -- the sign bit stands above all others
  have hnegative : (f.signed negative c / f.signBit % 2 == 1) = negative := by
    cases negative with
    | false => simp [signed, Nat.div_eq_of_lt hbelow]
    | true =>
      have hdivision : (f.signBit + c) / f.signBit = 1 := by
        rw [Nat.add_div_left _ (by omega), Nat.div_eq_of_lt hbelow]
      simp [signed, hdivision]
  have hfields : f.signed negative c / 2 ^ f.significandBits % 2 ^ f.exponentBits =
      c / 2 ^ f.significandBits ∧ f.signed negative c % 2 ^ f.significandBits =
      c % 2 ^ f.significandBits := by
    cases negative with
    | false => exact ⟨Nat.mod_eq_of_lt hbounded, rfl⟩
    | true =>
      simp only [signed, if_true, hsign]
      rw [Nat.mul_add_div (by positivity), Nat.add_mod_left, Nat.mul_add_mod]
      exact ⟨Nat.mod_eq_of_lt hbounded, rfl⟩
  unfold read
  simp only [Nat.pow_eq, hnegative, hfields.1, hfields.2]
  rw [if_neg hexponent.ne]
  split
  case isTrue hzero => rw [Nat.mod_eq_of_lt (by simpa using hzero)]
  case isFalse => rfl

/-- A code is read as a significand in units of its last bit, also where the significand has just
outgrown its width. -/
theorem read_code_value {k m : ℕ} (negative : Bool)
    (hc : k * 2 ^ f.significandBits + m < f.infinity) (hm : m ≤ 2 ^ (f.significandBits + 1))
    (hfull : k = 0 ∨ 2 ^ f.significandBits ≤ m) :
    (f.read (f.signed negative (k * 2 ^ f.significandBits + m))).value? =
      some ((Reading.scaled negative m : ℚ) * 2 ^ (f.least + k)) := by
  have hpos : 0 < 2 ^ f.significandBits := Nat.two_pow_pos _
  have htwice : 2 ^ (f.significandBits + 1) = 2 ^ f.significandBits + 2 ^ f.significandBits := by
    rw [pow_succ, Nat.mul_two]
  rw [read_signed negative hc, add_comm, Nat.add_mul_div_right _ _ hpos, Nat.add_mul_mod_self_right]
  obtain hsmall | hnormal | hlarge : m < 2 ^ f.significandBits ∨
      (2 ^ f.significandBits ≤ m ∧ m < 2 ^ (f.significandBits + 1)) ∨
      m = 2 ^ (f.significandBits + 1) := by omega
  · obtain rfl : k = 0 := by omega
    rw [if_pos (by rw [Nat.div_eq_of_lt hsmall]), Nat.zero_mul, add_zero, Nat.cast_zero, add_zero]
    rfl
  · have hone : m / 2 ^ f.significandBits = 1 :=
      Nat.div_eq_of_lt_le (by omega) (by omega)
    have hrest : 2 ^ f.significandBits + m % 2 ^ f.significandBits = m := by
      have hdivision := Nat.div_add_mod m (2 ^ f.significandBits)
      rwa [hone, Nat.mul_one] at hdivision
    have hexponent : 1 + k - 1 = k := by omega
    rw [hone, if_neg (by omega), hrest, hexponent]
    rfl
  · -- a significand rounded up to the next power of two has carried into the exponent
    have htwo : m / 2 ^ f.significandBits = 2 := by
      rw [hlarge, pow_succ, Nat.mul_div_cancel_left _ hpos]
    have hrest : m % 2 ^ f.significandBits = 0 := by rw [hlarge, pow_succ, Nat.mul_mod_right]
    have hexponent : ((2 + k - 1 : ℕ) : ℤ) = k + 1 := by omega
    have hvalue : (Reading.scaled negative m : ℚ) =
        Reading.scaled negative (2 ^ f.significandBits) * 2 := by
      rw [Reading.scaled_cast, Reading.scaled_cast, hlarge]
      split
      · push_cast
        ring
      · push_cast
        ring
    rw [htwo, if_neg (by omega), hrest, add_zero, hexponent, Reading.value?, hvalue, ← add_assoc,
      zpow_add_one₀ (by norm_num)]
    congr 1
    ring

/-- The bits that rounding gives stand for what the ratio is rounded to. -/
theorem read_roundRatio {num den : ℕ} (negative : Bool) (hden : 0 < den)
    (hfinite : f.roundRatio num den < f.infinity) :
    (f.read (f.signed negative (f.roundRatio num den))).value? =
      some (if negative then -f.rounded num den else f.rounded num den) := by
  obtain rfl | hnum := Nat.eq_zero_or_pos num
  · have hzero : f.roundRatio 0 den = 0 := if_pos rfl
    have hread := read_code_value (f := f) (k := 0) (m := 0) negative
      (by rw [hzero] at hfinite; simpa using hfinite) (Nat.zero_le _) (Or.inl rfl)
    rw [Nat.zero_mul, add_zero] at hread
    rw [hzero, hread, rounded_zero den hden, Reading.scaled_cast]
    simp
  · have hlast := least_le_lastBit (f := f) (floorLog2 num den)
    have hcode : f.roundRatio num den = min f.infinity
        ((f.lastBit (floorLog2 num den) - f.least).toNat * 2 ^ f.significandBits +
          f.significand num den) := if_neg hnum.ne'
    have hexponent : f.least + ((f.lastBit (floorLog2 num den) - f.least).toNat : ℤ) =
        f.lastBit (floorLog2 num den) := by omega
    -- a significand is short only where there is no smaller exponent
    have hfull : (f.lastBit (floorLog2 num den) - f.least).toNat = 0 ∨
        2 ^ f.significandBits ≤ f.significand num den := by
      by_cases hq : f.lastBit (floorLog2 num den) = f.least
      · exact Or.inl (by omega)
      · exact Or.inr (le_significand hnum hden hq)
    rw [hcode] at hfinite ⊢
    obtain hmin := min_lt_iff.mp hfinite |>.resolve_left (lt_irrefl _)
    rw [min_eq_right hmin.le, read_code_value negative hmin (significand_le hnum hden) hfull,
      hexponent, Reading.scaled_cast, rounded]
    split
    · rw [neg_mul]
    · rfl

/-- Rounding stays below the infinities where there are two more exponents. -/
theorem roundRatio_lt {num den : ℕ} (hnum : 0 < num) (hden : 0 < den)
    (h : (f.lastBit (floorLog2 num den) - f.least).toNat + 2 < 2 ^ f.exponentBits - 1) :
    f.roundRatio num den < f.infinity := by
  have hsignificand := significand_le (f := f) hnum hden
  have hcode : f.roundRatio num den = min f.infinity
      ((f.lastBit (floorLog2 num den) - f.least).toNat * 2 ^ f.significandBits +
        f.significand num den) := if_neg hnum.ne'
  rw [hcode]
  refine (min_le_right ..).trans_lt ?_
  calc (f.lastBit (floorLog2 num den) - f.least).toNat * 2 ^ f.significandBits +
        f.significand num den
      ≤ (f.lastBit (floorLog2 num den) - f.least).toNat * 2 ^ f.significandBits +
        2 ^ (f.significandBits + 1) := Nat.add_le_add_left hsignificand _
    _ = ((f.lastBit (floorLog2 num den) - f.least).toNat + 2) * 2 ^ f.significandBits := by ring
    _ < f.infinity := Nat.mul_lt_mul_of_pos_right h (Nat.two_pow_pos _)

/-- A finite pattern has a significand of its width. -/
theorem read_bounds {pattern m : ℕ} {negative : Bool} {q : ℤ}
    (h : f.read pattern = .finite negative m q) :
    m < 2 ^ (f.significandBits + 1) ∧ f.least ≤ q := by
  have hfraction : pattern % 2 ^ f.significandBits < 2 ^ f.significandBits :=
    Nat.mod_lt _ (Nat.two_pow_pos _)
  have htwice : 2 ^ (f.significandBits + 1) = 2 ^ f.significandBits + 2 ^ f.significandBits := by
    rw [pow_succ, Nat.mul_two]
  unfold read at h
  simp only [Nat.pow_eq] at h
  split at h
  · split at h <;> cases h
  · split at h
    · cases h
      exact ⟨by omega, le_refl _⟩
    · cases h
      exact ⟨by omega, by omega⟩

theorem represents_read {pattern : ℕ} {v : ℚ} (h : (f.read pattern).value? = some v) :
    f.Represents |v| := by
  obtain ⟨negative, m, q, hread⟩ := Reading.exists_of_value h
  obtain ⟨hm, hq⟩ := read_bounds hread
  rw [hread] at h
  exact ⟨m, q, hm.le, hq, Reading.abs_value h⟩

end Format

/-! Single precision. -/

namespace Single

open Format (single)

def value? (x : Single) : Option ℚ := x.reading.value?

theorem value_of_reading {x : Single} {negative : Bool} {m : ℕ} {q : ℤ}
    (h : x.reading = .finite negative m q) :
    x.value? = some ((if negative then -(m : ℚ) else m) * 2 ^ q) := by
  unfold value?
  rw [h, Reading.value?, Reading.scaled_cast]

theorem represents_value {x : Single} {v : ℚ} (h : x.value? = some v) : single.Represents |v| :=
  Format.represents_read h

theorem floorInt64_of_value {x : Single} {v : ℚ} (h : x.value? = some v) :
    x.floorInt64 = clamp64 ⌊v⌋ := by
  have hfloor := Reading.floor_eq h
  obtain ⟨negative, m, q, hreading⟩ := Reading.exists_of_value h
  unfold floorInt64
  rw [hreading] at hfloor ⊢
  change clamp64 ((Reading.finite negative m q).floor?.getD 0) = clamp64 ⌊v⌋
  rw [hfloor, Option.getD_some]

theorem roundRatio_lt_infinity {num den : ℕ} (hden : 0 < den) (h : num < den * 2 ^ 64) :
    single.roundRatio num den < single.infinity := by
  obtain rfl | hnum := Nat.eq_zero_or_pos num
  · have hzero : single.roundRatio 0 den = 0 := if_pos rfl
    rw [hzero]
    decide
  · have hratio : (num / den : ℚ) < 2 ^ (64 : ℤ) := by
      rw [div_lt_iff₀ (by exact_mod_cast hden), mul_comm]
      exact_mod_cast h
    have horder : floorLog2 num den < 64 := by
      have hlow := (floor_log_bounds hnum hden).1.trans_lt hratio
      exact (zpow_lt_zpow_iff_right₀ (by norm_num)).mp hlow
    have hlast : single.lastBit (floorLog2 num den) ≤ 41 := by
      change max (floorLog2 num den - 23) (-149) ≤ 41
      omega
    refine Format.roundRatio_lt hnum hden ?_
    change (single.lastBit (floorLog2 num den) - (-149)).toNat + 2 < 255
    omega

theorem roundRatio_le_infinity (num den : ℕ) : single.roundRatio num den ≤ single.infinity := by
  unfold Format.roundRatio
  split
  · exact Nat.zero_le _
  · exact min_le_left ..

/-- Thirty-two bits are enough for whatever a ratio is rounded to. -/
theorem reading_ofRatio (negative : Bool) (num den : ℕ) :
    (ofRatio negative num den).reading =
      single.read (single.signed negative (single.roundRatio num den)) := by
  have hcode : single.roundRatio num den ≤ 255 * 2 ^ 23 := roundRatio_le_infinity num den
  have hsigned : single.signed negative (single.roundRatio num den) < 2 ^ 32 := by
    unfold Format.signed
    split
    · change 2 ^ 31 + single.roundRatio num den < 2 ^ 32
      omega
    · omega
  unfold reading ofRatio
  rw [UInt32.toNat_ofNat', Nat.mod_eq_of_lt hsigned]

theorem value_of_finite {num den : ℕ} (negative : Bool) (hden : 0 < den)
    (hfinite : single.roundRatio num den < single.infinity) :
    (ofRatio negative num den).value? =
      some (if negative then -single.rounded num den else single.rounded num den) := by
  unfold value?
  rw [reading_ofRatio]
  exact Format.read_roundRatio negative hden hfinite

/-- A ratio that is too large for the format becomes infinite. -/
theorem reading_of_large {num den : ℕ} (negative : Bool)
    (hlarge : ¬ single.roundRatio num den < single.infinity) :
    (ofRatio negative num den).reading = .infinite negative := by
  have hcode := (roundRatio_le_infinity num den).antisymm (not_lt.mp hlarge)
  rw [reading_ofRatio, hcode]
  cases negative <;> decide

theorem value_ofRatio {num den : ℕ} (negative : Bool) (hden : 0 < den) (h : num < den * 2 ^ 64) :
    (ofRatio negative num den).value? =
      some (if negative then -single.rounded num den else single.rounded num den) :=
  value_of_finite negative hden (roundRatio_lt_infinity hden h)

/-- An integer that has room is kept. -/
theorem value_ofInt {i : ℤ} (hroom : single.Represents i.natAbs) (h : i.natAbs < 2 ^ 64) :
    (ofInt i).value? = some (i : ℚ) := by
  have hexact : single.rounded i.natAbs 1 = i.natAbs := by
    obtain hzero | hpos := Nat.eq_zero_or_pos i.natAbs
    · rw [hzero, Format.rounded_zero 1 Nat.one_pos, Nat.cast_zero]
    · have hone : (i.natAbs : ℚ) / (1 : ℕ) = i.natAbs := by rw [Nat.cast_one, div_one]
      rw [Format.rounded_exact hpos Nat.one_pos (by rwa [hone]), hone]
  rw [ofInt, value_ofRatio _ Nat.one_pos (by omega), hexact, Nat.cast_natAbs, Int.cast_abs]
  split
  case isTrue hneg =>
    have hneg' : (i : ℚ) < 0 := by exact_mod_cast of_decide_eq_true hneg
    rw [abs_of_neg hneg', neg_neg]
  case isFalse hneg =>
    have hnonneg : (0 : ℚ) ≤ i := by exact_mod_cast not_lt.mp (mt decide_eq_true hneg)
    rw [abs_of_nonneg hnonneg]

/-- A quotient is that of the magnitudes, rounded once, with the sign of the first number. -/
theorem value_div {x y : Single} {u v : ℚ} (hx : x.value? = some u) (hy : y.value? = some v)
    (hv : 0 < v) (h : |u| < v * 2 ^ 64) :
    ∃ num den : ℕ, 0 < den ∧ (num / den : ℚ) = |u| / v ∧ (x / y).value? =
      some (if u < 0 then -single.rounded num den else single.rounded num den) := by
  obtain ⟨a, m, p, hxr⟩ := Reading.exists_of_value hx
  obtain ⟨b, n, q, hyr⟩ := Reading.exists_of_value hy
  unfold value? at hx hy
  rw [hxr] at hx
  rw [hyr] at hy
  -- the divisor is above zero: its significand is no zero, and its sign is not set
  have hn : 0 < n := by
    have habs := Reading.abs_value hy
    refine Nat.pos_of_ne_zero fun hzero => ?_
    rw [hzero, Nat.cast_zero, zero_mul, abs_of_pos hv] at habs
    exact hv.ne' habs
  have hb : b = false := by
    have hnonneg := (Reading.value_neg_iff hy).not.mp (not_lt.mpr hv.le)
    cases b with
    | true => exact absurd ⟨rfl, hn⟩ hnonneg
    | false => rfl
  subst hb
  have hquotient : x / y =
      ofRatio a (m * Nat.pow 2 (p - q).toNat) (n * Nat.pow 2 (q - p).toNat) := by
    change div x y = _
    unfold div
    rw [hxr, hyr]
    simp only [if_neg hn.ne', Bool.bne_false]
  have hden : 0 < n * Nat.pow 2 (q - p).toNat := Nat.mul_pos hn (Nat.two_pow_pos _)
  have hratio : ((m * Nat.pow 2 (p - q).toNat : ℕ) : ℚ) / (n * Nat.pow 2 (q - p).toNat : ℕ) =
      |u| / v := by
    have hpower := two_zpow_eq (p - q)
    rw [neg_sub, zpow_sub₀ (by norm_num)] at hpower
    rw [← abs_of_pos hv, Reading.abs_value hx, Reading.abs_value hy]
    push_cast at hpower ⊢
    rw [mul_div_mul_comm, ← hpower, ← mul_div_mul_comm]
  have hbound : m * Nat.pow 2 (p - q).toNat < n * Nat.pow 2 (q - p).toNat * 2 ^ 64 := by
    have hlt := (div_lt_iff₀' hv).mpr h
    rw [← hratio, div_lt_iff₀' (by exact_mod_cast hden)] at hlt
    exact_mod_cast hlt
  refine ⟨_, _, hden, hratio, ?_⟩
  rw [hquotient, value_ofRatio a hden hbound]
  obtain rfl | hm := Nat.eq_zero_or_pos m
  · -- a zero of either sign is zero
    rw [Nat.zero_mul, Format.rounded_zero _ hden, neg_zero, ite_self, ite_self]
  · refine congrArg some (if_congr ?_ rfl rfl)
    rw [Reading.value_neg_iff hx]
    exact (and_iff_left hm).symm

end Single

end ScenarioHost
