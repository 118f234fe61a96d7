import ScenarioHost.Proofs.Rounding

/-!
The numbers that are rounded to one number of a binary format. They are those up to half of a last
bit away, where the last bit is half as long below a power of two; the ends belong to them if the
significand is even.
-/
namespace ScenarioHost

/-- Up to a half away from an even number, or less from an odd one, that number is the nearest. -/
theorem nearest_even_eq {num den m : ℕ} (hden : 0 < den) (hlow : (m - 1 / 2 : ℚ) ≤ num / den)
    (hhigh : (num / den : ℚ) ≤ m + 1 / 2)
    (hinside : m % 2 = 0 ∨ (m - 1 / 2 : ℚ) < num / den ∧ (num / den : ℚ) < m + 1 / 2) :
    nearestEven num den = m := by
  have hden' : (0 : ℚ) < den := by exact_mod_cast hden
  have hscale : (num : ℚ) = num / den * den := (div_mul_cancel₀ _ hden'.ne').symm
  have hdivision : den * (num / den) + num % den = num := Nat.div_add_mod num den
  have hrest : num % den < den := Nat.mod_lt num hden
  -- twice the ratio, over the same denominator
  have hlow' : 2 * (m * den) ≤ 2 * num + den := by
    have hmul := mul_le_mul_of_nonneg_right hlow hden'.le
    have hcast : (2 * (m * den) : ℚ) ≤ 2 * num + den := by linarith
    exact_mod_cast hcast
  have hhigh' : 2 * num ≤ 2 * (m * den) + den := by
    have hmul := mul_le_mul_of_nonneg_right hhigh hden'.le
    have hcast : (2 * num : ℚ) ≤ 2 * (m * den) + den := by linarith
    exact_mod_cast hcast
  have hinside' : m % 2 = 0 ∨ 2 * (m * den) < 2 * num + den ∧ 2 * num < 2 * (m * den) + den := by
    refine hinside.imp_right fun ⟨hfrom, hto⟩ => ?_
    have hfrom' := mul_lt_mul_of_pos_right hfrom hden'
    have hto' := mul_lt_mul_of_pos_right hto hden'
    have hcasts : (2 * (m * den) : ℚ) < 2 * num + den ∧ (2 * num : ℚ) < 2 * (m * den) + den := by
      constructor <;> linarith
    exact_mod_cast hcasts
  obtain hsame | hbelow | hother : num / den = m ∨ num / den + 1 = m ∨
      (num / den + 1 < m ∨ m < num / den) := by omega
  · rw [hsame, Nat.mul_comm] at hdivision
    unfold nearestEven
    dsimp only
    rw [hsame]
    split
    · rfl
    · rw [if_neg (by omega)]
      omega
  · have hm : m * den = den * (num / den) + den := by rw [← hbelow]; ring
    unfold nearestEven
    dsimp only
    rw [if_neg (by omega)]
    split
    · exact hbelow
    · omega
  · exfalso
    obtain hless | hmore := hother
    · have hstep : den * (num / den + 2) ≤ den * m := Nat.mul_le_mul_left den hless
      rw [Nat.mul_add, Nat.mul_comm den m] at hstep
      omega
    · have hstep : den * (m + 1) ≤ den * (num / den) := Nat.mul_le_mul_left den hmore
      rw [Nat.mul_add, Nat.mul_comm den m] at hstep
      omega

namespace Format

variable (f : Format)

structure Canonical (m : ℕ) (q : ℤ) : Prop where
  narrow : m < 2 ^ (f.significandBits + 1)
  least_le : f.least ≤ q
  full : q = f.least ∨ 2 ^ f.significandBits ≤ m

def code (m : ℕ) (q : ℤ) : ℕ := (q - f.least).toNat * 2 ^ f.significandBits + m

def below (m : ℕ) (q : ℤ) : ℕ := if m = 2 ^ f.significandBits ∧ f.least < q then 1 else 2

def lowEnd (m : ℕ) (q : ℤ) : ℚ := ((4 * m - f.below m q : ℕ) : ℚ) * 2 ^ (q - 2)

def highEnd (m : ℕ) (q : ℤ) : ℚ := ((4 * m + 2 : ℕ) : ℚ) * 2 ^ (q - 2)

structure RoundsTo (m : ℕ) (q : ℤ) (v : ℚ) : Prop where
  low : f.lowEnd m q ≤ v
  high : v ≤ highEnd m q
  inside : m % 2 = 0 ∨ f.lowEnd m q < v ∧ v < highEnd m q

variable {f} {m : ℕ} {q : ℤ}

theorem below_cases (f : Format) (m : ℕ) (q : ℤ) :
    (f.below m q = 1 ∧ m = 2 ^ f.significandBits ∧ f.least < q) ∨
      (f.below m q = 2 ∧ ¬ (m = 2 ^ f.significandBits ∧ f.least < q)) := by
  unfold below
  split
  case isTrue h => exact Or.inl ⟨rfl, h⟩
  case isFalse h => exact Or.inr ⟨rfl, h⟩

theorem quarter (n : ℕ) (q : ℤ) : (n : ℚ) * 2 ^ (q - 2) = n / 4 * 2 ^ q := by
  rw [zpow_sub₀ (by norm_num)]
  ring

theorem lowEnd_eq (hm : 0 < m) : f.lowEnd m q = (m - f.below m q / 4) * 2 ^ q := by
  have hbelow : f.below m q ≤ 4 * m := by
    obtain ⟨h, -⟩ | ⟨h, -⟩ := below_cases f m q <;> omega
  rw [lowEnd, quarter]
  push_cast [hbelow]
  ring

theorem highEnd_eq (m : ℕ) (q : ℤ) : highEnd m q = (m + 1 / 2) * 2 ^ q := by
  rw [highEnd, quarter]
  push_cast
  ring

/-- The last bit that is kept of a number between two powers of two. -/
theorem lastBit_eq {num den : ℕ} (hnum : 0 < num) (hden : 0 < den) (hq : f.least ≤ q)
    (hhigh : (num / den : ℚ) < 2 ^ ((f.significandBits : ℤ) + 1 + q))
    (hlow : q = f.least ∨ (2 : ℚ) ^ ((f.significandBits : ℤ) + q) ≤ num / den) :
    f.lastBit (floorLog2 num den) = q := by
  obtain ⟨horder, horder'⟩ := floor_log_bounds hnum hden
  have hbelow : floorLog2 num den < (f.significandBits : ℤ) + 1 + q :=
    (zpow_lt_zpow_iff_right₀ (by norm_num)).mp (horder.trans_lt hhigh)
  unfold lastBit
  obtain rfl | hlow := hlow
  · omega
  · have habove : (f.significandBits : ℤ) + q < floorLog2 num den + 1 :=
      (zpow_lt_zpow_iff_right₀ (by norm_num)).mp (hlow.trans_lt horder')
    omega

theorem significand_eq {num den : ℕ} (hden : 0 < den) {s : ℤ}
    (hs : f.lastBit (floorLog2 num den) = s) (hlow : (m - 1 / 2 : ℚ) * 2 ^ s ≤ num / den)
    (hhigh : (num / den : ℚ) ≤ (m + 1 / 2) * 2 ^ s)
    (hinside : m % 2 = 0 ∨
      (m - 1 / 2 : ℚ) * 2 ^ s < num / den ∧ (num / den : ℚ) < (m + 1 / 2) * 2 ^ s) :
    f.significand num den = m := by
  have hpos : (0 : ℚ) < 2 ^ s := by positivity
  unfold significand
  dsimp only
  rw [hs]
  apply nearest_even_eq (significand_pos_den hden s)
  · rwa [units_eq, le_div_iff₀ hpos]
  · rwa [units_eq, div_le_iff₀ hpos]
  · rwa [units_eq, lt_div_iff₀ hpos, div_lt_iff₀ hpos]

theorem roundRatio_eq {num den : ℕ} (hnum : 0 < num) {s : ℤ}
    (hs : f.lastBit (floorLog2 num den) = s) :
    f.roundRatio num den = min f.infinity (f.code (f.significand num den) s) := by
  subst hs
  exact if_neg hnum.ne'

/-- A power of two has one code, whichever of two last bits it is written with. -/
theorem code_power (hq : f.least < q) :
    f.code (2 ^ (f.significandBits + 1)) (q - 1) = f.code (2 ^ f.significandBits) q := by
  have hnext : (q - f.least).toNat = (q - 1 - f.least).toNat + 1 := by omega
  rw [code, code, hnext]
  ring

section RoundsTo

variable {num den : ℕ} (hnum : 0 < num) (hden : 0 < den) (hcanonical : f.Canonical m q)
  (hm : 0 < m) (h : f.RoundsTo m q (num / den))
include hnum hden hcanonical hm h

/-- On the grid of its own last bit. -/
theorem roundRatio_on_grid
    (hside : q = f.least ∨ (2 : ℚ) ^ ((f.significandBits : ℤ) + q) ≤ num / den) :
    f.roundRatio num den = min f.infinity (f.code m q) := by
  have hpos : (0 : ℚ) < 2 ^ q := by positivity
  obtain ⟨hlow, hhigh, hinside⟩ := h
  rw [lowEnd_eq hm] at hlow hinside
  rw [highEnd_eq] at hhigh hinside
  have hquarters : (m - 1 / 2 : ℚ) * 2 ^ q ≤ (m - f.below m q / 4) * 2 ^ q := by
    apply mul_le_mul_of_nonneg_right _ hpos.le
    have hbelow : (f.below m q : ℚ) ≤ 2 := by
      obtain ⟨h, -⟩ | ⟨h, -⟩ := below_cases f m q <;> rw [h] <;> norm_num
    linarith
  have htop : (num / den : ℚ) < 2 ^ ((f.significandBits : ℤ) + 1 + q) := by
    have hnarrow : (m : ℚ) + 1 ≤ (2 ^ (f.significandBits + 1) : ℕ) := by
      exact_mod_cast hcanonical.narrow
    calc (num / den : ℚ) ≤ (m + 1 / 2) * 2 ^ q := hhigh
      _ < ((2 ^ (f.significandBits + 1) : ℕ) : ℚ) * 2 ^ q :=
          mul_lt_mul_of_pos_right (by linarith) hpos
      _ = 2 ^ (((f.significandBits + 1 : ℕ) : ℤ) + q) := pow_mul_zpow ..
      _ = 2 ^ ((f.significandBits : ℤ) + 1 + q) := by push_cast; rfl
  have hlast := lastBit_eq hnum hden hcanonical.least_le htop hside
  have hsignificand : f.significand num den = m := by
    apply significand_eq hden hlast (hquarters.trans hlow) hhigh
    exact hinside.imp_right fun ⟨hfrom, hto⟩ => ⟨hquarters.trans_lt hfrom, hto⟩
  rw [roundRatio_eq hnum hlast, hsignificand]

omit hnum hden in
/-- Of the numbers with the last bit of a power of two, none but that power reaches below it. -/
theorem power_of_small (hq : q ≠ f.least)
    (hsmall : (num / den : ℚ) < ((2 ^ f.significandBits : ℕ) : ℚ) * 2 ^ q) :
    m = 2 ^ f.significandBits ∧ (((2 ^ f.significandBits : ℕ) : ℚ) - 1 / 4) * 2 ^ q ≤ num / den := by
  have hpos : (0 : ℚ) < 2 ^ q := by positivity
  have hfull := hcanonical.full.resolve_left hq
  have hleast := hcanonical.least_le
  have hlow := h.low
  rw [lowEnd_eq hm] at hlow
  obtain ⟨hbelow, rfl, -⟩ | ⟨hbelow, hnot⟩ := below_cases f m q
  · rw [hbelow, Nat.cast_one] at hlow
    exact ⟨rfl, hlow⟩
  · exfalso
    have hlarger : 2 ^ f.significandBits + 1 ≤ m := by omega
    have hcast : ((2 ^ f.significandBits : ℕ) : ℚ) + 1 ≤ m := by exact_mod_cast hlarger
    have hless : ((2 ^ f.significandBits : ℕ) : ℚ) * 2 ^ q ≤ (m - (2 : ℕ) / 4) * 2 ^ q := by
      apply mul_le_mul_of_nonneg_right _ hpos.le
      push_cast at hcast ⊢
      linarith
    rw [hbelow] at hlow
    exact absurd hsmall (not_lt.mpr (hless.trans hlow))

/-- Just below a power of two the last bit is half as long, and that power has one more bit. -/
theorem roundRatio_below_power (hq : q ≠ f.least)
    (hsmall : (num / den : ℚ) < 2 ^ ((f.significandBits : ℤ) + q)) :
    f.roundRatio num den = min f.infinity (f.code m q) := by
  have hleast := hcanonical.least_le
  have hpower : ((2 ^ f.significandBits : ℕ) : ℚ) * 2 ^ q = 2 ^ ((f.significandBits : ℤ) + q) :=
    pow_mul_zpow ..
  rw [← hpower] at hsmall
  obtain ⟨rfl, hlow⟩ := power_of_small hcanonical hm h hq hsmall
  have hhalf : (2 : ℚ) ^ q = 2 * 2 ^ (q - 1) := by
    rw [zpow_sub_one₀ (by norm_num)]
    ring
  have hbit : (1 : ℚ) ≤ (2 ^ f.significandBits : ℕ) := by exact_mod_cast Nat.one_le_two_pow
  have hpos' : (0 : ℚ) < 2 ^ (q - 1) := by positivity
  rw [hhalf] at hlow hsmall
  -- below a power of two the places are half as wide, so the ratio is rounded up to the power
  have hlast : f.lastBit (floorLog2 num den) = q - 1 := by
    apply lastBit_eq hnum hden (by omega)
    · have hexponent : (f.significandBits : ℤ) + 1 + (q - 1) = f.significandBits + q := by ring
      rw [hexponent, ← hpower, hhalf]
      exact hsmall
    · right
      rw [← pow_mul_zpow]
      refine le_trans ?_ hlow
      push_cast at hbit ⊢
      nlinarith
  have hsignificand : f.significand num den = 2 ^ (f.significandBits + 1) := by
    apply significand_eq hden hlast
    · refine le_trans (le_of_eq ?_) hlow
      push_cast
      ring
    · refine hsmall.le.trans ?_
      rw [pow_succ]
      push_cast
      linarith
    · left
      rw [pow_succ, Nat.mul_mod_left]
  rw [roundRatio_eq hnum hlast, hsignificand, code_power (lt_of_le_of_ne hleast hq.symm)]

/-- A number among those that are rounded to another one is rounded to it. -/
theorem roundRatio_of_roundsTo (hfinite : f.code m q < f.infinity) :
    f.roundRatio num den = f.code m q := by
  have hround : f.roundRatio num den = min f.infinity (f.code m q) := by
    by_cases hside : q = f.least ∨ (2 : ℚ) ^ ((f.significandBits : ℤ) + q) ≤ num / den
    · exact roundRatio_on_grid hnum hden hcanonical hm h hside
    · obtain ⟨hq, hsmall⟩ := not_or.mp hside
      exact roundRatio_below_power hnum hden hcanonical hm h hq (not_le.mp hsmall)
  rw [hround, min_eq_right hfinite.le]

end RoundsTo

/-- Rounding moves a number by half of its last bit at most. -/
theorem rounded_half {num den : ℕ} (hden : 0 < den) :
    |f.rounded num den - num / den| ≤ 2 ^ f.lastBit (floorLog2 num den) / 2 := by
  let s := f.lastBit (floorLog2 num den)
  let u : ℚ := num / den / 2 ^ s
  have hpos : (0 : ℚ) < 2 ^ s := by positivity
  have hratio : (0 : ℚ) ≤ u + 1 / 2 := by positivity
  have hlow := Nat.floor_le hratio
  have hhigh := Nat.lt_floor_add_one (u + 1 / 2)
  have hhalf : |(⌊u + 1 / 2⌋₊ : ℚ) - u| ≤ 1 / 2 := abs_le.mpr ⟨by linarith, by linarith⟩
  calc |f.rounded num den - num / den|
      ≤ |(⌊u + 1 / 2⌋₊ : ℚ) * 2 ^ s - num / den| := rounded_error num hden _
    _ = |(⌊u + 1 / 2⌋₊ : ℚ) - u| * 2 ^ s := by
        rw [← abs_of_pos hpos, ← abs_mul, abs_of_pos hpos, sub_mul, div_mul_cancel₀ _ hpos.ne']
    _ ≤ 1 / 2 * 2 ^ s := mul_le_mul_of_nonneg_right hhalf hpos.le
    _ = 2 ^ s / 2 := by ring

/-! Patterns. -/

/-- A finite pattern has the form that its code is made of. -/
theorem canonical_of_read {pattern : ℕ} {negative : Bool}
    (h : f.read pattern = .finite negative m q) : f.Canonical m q := by
  obtain ⟨hm, hq⟩ := read_bounds h
  refine ⟨hm, hq, ?_⟩
  unfold read at h
  simp only [Nat.pow_eq] at h
  split at h
  · split at h <;> cases h
  · split at h
    · cases h
      exact Or.inl rfl
    · cases h
      exact Or.inr (Nat.le_add_right ..)

/-- The fields of a finite pattern: the upper ones hold the sign and the exponent. -/
theorem fields_of_read {pattern : ℕ} {negative : Bool} (h : f.read pattern = .finite negative m q) :
    2 ^ f.significandBits * (pattern / 2 ^ f.significandBits % 2 ^ f.exponentBits) +
        pattern % 2 ^ f.significandBits = f.code m q ∧
      negative = (pattern / f.signBit % 2 == 1) ∧
      pattern / 2 ^ f.significandBits % 2 ^ f.exponentBits ≠ 2 ^ f.exponentBits - 1 := by
  unfold read at h
  simp only [Nat.pow_eq] at h
  split at h
  · split at h <;> cases h
  · rename_i hfinite
    split at h
    · -- numbers without the hidden bit
      rename_i hzero
      cases h
      refine ⟨?_, rfl, hfinite⟩
      rw [hzero, code, sub_self]
      simp
    · rename_i hpositive
      cases h
      refine ⟨?_, rfl, hfinite⟩
      obtain ⟨k, hk⟩ := Nat.exists_eq_succ_of_ne_zero hpositive
      rw [hk, code, Nat.succ_eq_add_one, Nat.add_sub_cancel, add_sub_cancel_left, Int.toNat_natCast]
      ring

/-- A pattern is made up of its fields. -/
theorem fields_sum (f : Format) (pattern : ℕ) :
    f.signBit * (pattern / f.signBit) +
      (2 ^ f.significandBits * (pattern / 2 ^ f.significandBits % 2 ^ f.exponentBits) +
        pattern % 2 ^ f.significandBits) = pattern := by
  have hsign : f.signBit = 2 ^ f.significandBits * 2 ^ f.exponentBits := by
    rw [signBit, Nat.pow_eq, pow_add, mul_comm]
  have hfraction := Nat.div_add_mod pattern (2 ^ f.significandBits)
  have hexponent := Nat.div_add_mod (pattern / 2 ^ f.significandBits) (2 ^ f.exponentBits)
  rw [Nat.div_div_eq_div_mul, ← hsign] at hexponent
  have hscaled := congrArg (2 ^ f.significandBits * ·) hexponent
  simp only [Nat.mul_add, ← Nat.mul_assoc, ← hsign] at hscaled
  omega

/-- A finite pattern is what its sign and the code of its magnitude make. -/
theorem pattern_of_read {pattern : ℕ} {negative : Bool} (hpattern : pattern < 2 * f.signBit)
    (h : f.read pattern = .finite negative m q) :
    pattern = f.signed negative (f.code m q) ∧ f.code m q < f.infinity := by
  have hsum := f.fields_sum pattern
  obtain ⟨hcode, hnegative, hfinite⟩ := fields_of_read h
  rw [mul_comm] at hpattern
  have hsigns : pattern / f.signBit < 2 := Nat.div_lt_of_lt_mul hpattern
  refine ⟨?_, ?_⟩
  · rw [← hcode, signed, hnegative]
    obtain hzero | hone := Nat.le_one_iff_eq_zero_or_eq_one.mp (Nat.le_of_lt_succ hsigns)
    · rw [hzero, Nat.mul_zero, Nat.zero_add] at hsum
      rw [hzero, hsum]
      rfl
    · rw [hone, Nat.mul_one] at hsum
      rw [hone, hsum]
      rfl
  · rw [← hcode, infinity, Nat.pow_eq, Nat.pow_eq]
    have hrest : pattern % 2 ^ f.significandBits < 2 ^ f.significandBits :=
      Nat.mod_lt _ (Nat.two_pow_pos _)
    have hmod := Nat.mod_lt (pattern / 2 ^ f.significandBits) (Nat.two_pow_pos f.exponentBits)
    have hless : pattern / 2 ^ f.significandBits % 2 ^ f.exponentBits + 1 ≤ 2 ^ f.exponentBits - 1 :=
      lt_of_le_of_ne (Nat.le_sub_one_of_lt hmod) hfinite
    have hscaled := Nat.mul_le_mul_left (2 ^ f.significandBits) hless
    rw [Nat.mul_add, Nat.mul_one] at hscaled
    rw [Nat.mul_comm (2 ^ f.exponentBits - 1)]
    omega

end Format

end ScenarioHost
