import ScenarioHost.Decimal.Shortest
import ScenarioHost.Proofs.RoundingIntervals

/-!
The shortest decimal that identifies a binary number. It always exists, since fine enough grids have
a point in any interval, and it lies among the numbers that are rounded to the binary one. For an
odd significand those are an open interval around it, so that no point of the same grid is nearer.
-/
namespace ScenarioHost

/-! Decimals as numbers. -/

theorem ten_zpow_eq (e : ℤ) :
    (10 : ℚ) ^ e = (Nat.pow 10 e.toNat : ℕ) / (Nat.pow 10 (-e).toNat : ℕ) := by
  have hsplit : (10 : ℚ) ^ e = 10 ^ ((e.toNat : ℤ) - ((-e).toNat : ℤ)) := by
    rw [Int.toNat_sub_toNat_neg]
  rw [hsplit, zpow_sub₀ (by norm_num), zpow_natCast, zpow_natCast, Nat.pow_eq, Nat.pow_eq]
  push_cast
  rfl

theorem width_bounds {n : ℕ} (hn : 0 < n) :
    0 < decimalWidth n ∧ 10 ^ (decimalWidth n - 1) ≤ n ∧ n < 10 ^ decimalWidth n := by
  have hpos : 0 < decimalWidth n := Nat.length_toDigits_pos
  have hdigits {k : ℕ} (hk : 0 < k) : decimalWidth n ≤ k ↔ n < 10 ^ k :=
    Nat.length_toDigits_le_iff (by norm_num) hk
  refine ⟨hpos, ?_, (hdigits hpos).mp le_rfl⟩
  obtain hone | hmore := Nat.eq_or_lt_of_le (Nat.succ_le_of_lt hpos)
  · rw [← hone]
    exact hn
  · by_contra hless
    have hshort := (hdigits (by omega)).mpr (not_le.mp hless)
    omega

/-- The decimal order of a ratio is not too large. -/
theorem floor_log10_le {num den : ℕ} (hnum : 0 < num) (hden : 0 < den) :
    (10 : ℚ) ^ floorLog10 num den ≤ num / den := by
  have hden' : (0 : ℚ) < den := by exact_mod_cast hden
  have htest (e : ℤ) : den * Nat.pow 10 e.toNat ≤ num * Nat.pow 10 (-e).toNat ↔
      (10 : ℚ) ^ e ≤ num / den := by
    have hpos : (0 : ℚ) < (Nat.pow 10 (-e).toNat : ℕ) := by
      exact_mod_cast Nat.pow_pos (by norm_num)
    rw [ten_zpow_eq, div_le_div_iff₀ hpos hden', mul_comm ((Nat.pow 10 e.toNat : ℕ) : ℚ)]
    exact_mod_cast Iff.rfl
  unfold floorLog10
  dsimp only
  split
  case isTrue h => exact (htest _).mp h
  case isFalse =>
    obtain ⟨hwide, hlow, -⟩ := width_bounds hnum
    obtain ⟨-, -, hhigh⟩ := width_bounds hden
    rw [le_div_iff₀ hden']
    calc (10 : ℚ) ^ ((decimalWidth num : ℤ) - decimalWidth den - 1) * den
        ≤ 10 ^ ((decimalWidth num : ℤ) - decimalWidth den - 1) * 10 ^ (decimalWidth den : ℤ) := by
          apply mul_le_mul_of_nonneg_left _ (by positivity)
          rw [zpow_natCast]
          exact_mod_cast hhigh.le
      _ = 10 ^ ((decimalWidth num - 1 : ℕ) : ℤ) := by
          rw [← zpow_add₀ (by norm_num)]
          congr 1
          omega
      _ ≤ num := by
          rw [zpow_natCast]
          exact_mod_cast hlow

namespace Decimal

def value (d : Decimal) : ℚ := d.digits * 10 ^ d.exponent

theorem value_stripZeros (fuel : ℕ) (d : Decimal) : (stripZeros fuel d).value = d.value := by
  induction fuel generalizing d with
  | zero => rfl
  | succ fuel ih =>
    rw [stripZeros]
    split
    · rename_i hzero
      rw [ih]
      have hdigits : ((d.digits / 10 : ℕ) : ℚ) * 10 = d.digits := by
        have hexact := Nat.div_mul_cancel (Nat.dvd_of_mod_eq_zero hzero.2)
        exact_mod_cast hexact
      rw [value, value, zpow_add_one₀ (by norm_num), ← hdigits]
      ring
    · rfl

/-- Trailing zeros do not count. -/
theorem value_normalized (d : Decimal) : d.normalized.value = d.value := by
  unfold normalized
  split
  · rename_i hzero
    rw [value, value, hzero]
    simp [zero]
  · exact value_stripZeros _ d

end Decimal

/-- The nearest integer is at most a half away, however halves are decided. -/
theorem nearest_half (tie : Tie) (num : ℕ) {den : ℕ} (hden : 0 < den) :
    |(nearest tie num den : ℚ) - num / den| ≤ 1 / 2 := by
  have hden' : (0 : ℚ) < den := by exact_mod_cast hden
  have hscaled {n : ℕ} (hlow : 2 * num ≤ 2 * (n * den) + den)
      (hhigh : 2 * (n * den) ≤ 2 * num + den) : |(n : ℚ) - num / den| ≤ 1 / 2 := by
    have hlow' : (2 * num : ℚ) ≤ 2 * (n * den) + den := by exact_mod_cast hlow
    have hhigh' : (2 * (n * den) : ℚ) ≤ 2 * num + den := by exact_mod_cast hhigh
    have hratio : (num : ℚ) = num / den * den := (div_mul_cancel₀ _ hden'.ne').symm
    rw [hratio] at hlow' hhigh'
    rw [abs_le]
    constructor
    · exact le_of_mul_le_mul_right (by linarith) hden'
    · exact le_of_mul_le_mul_right (by linarith) hden'
  cases tie with
  | up =>
    have hdivision : 2 * den * nearestUp num den + (2 * num + den) % (2 * den) = 2 * num + den :=
      Nat.div_add_mod ..
    have hrest : (2 * num + den) % (2 * den) < 2 * den := Nat.mod_lt _ (by omega)
    have hmul : 2 * den * nearestUp num den = 2 * (nearestUp num den * den) := by ring
    exact hscaled (n := nearestUp num den) (by omega) (by omega)
  | even =>
    have hhalf := nearest_even_half num den hden
    exact hscaled (n := nearestEven num den) (by omega) (by omega)

/-- Half a step from a number, a point of a grid is no farther than any other one. -/
theorem nearest_of_half {n j : ℕ} {u : ℚ} (h : |(n : ℚ) - u| ≤ 1 / 2) :
    |(n : ℚ) - u| ≤ |(j : ℚ) - u| := by
  by_contra hless
  have hsum : |(j : ℚ) - n| < 1 := by
    calc |(j : ℚ) - n| ≤ |(j : ℚ) - u| + |u - n| := abs_sub_le _ _ _
      _ = |(j : ℚ) - u| + |(n : ℚ) - u| := by rw [abs_sub_comm u]
      _ < 1 := by linarith
  have hsame : (j : ℤ) - n = 0 := by
    apply Int.abs_lt_one_iff.mp
    exact_mod_cast hsum
  obtain rfl : j = n := by omega
  exact hless le_rfl

namespace Decimal

/-- The number nearest to a ratio on a grid is at most half a step away. -/
theorem value_onGrid (tie : Tie) (num : ℕ) {den : ℕ} (hden : 0 < den) (e : ℤ) :
    |(onGrid tie num den e).value - num / den| ≤ 10 ^ e / 2 := by
  have hpos : (0 : ℚ) < 10 ^ e := by positivity
  have hden' : 0 < den * Nat.pow 10 e.toNat := Nat.mul_pos hden (Nat.pow_pos (by norm_num))
  have hhalf := nearest_half tie (num * Nat.pow 10 (-e).toNat) hden'
  have hunits : ((num * Nat.pow 10 (-e).toNat : ℕ) : ℚ) / (den * Nat.pow 10 e.toNat : ℕ) =
      num / den / 10 ^ e := by
    rw [ten_zpow_eq]
    push_cast
    rw [div_div_div_eq, mul_comm]
  rw [hunits] at hhalf
  calc |(onGrid tie num den e).value - num / den|
      = |((onGrid tie num den e).digits : ℚ) - num / den / 10 ^ e| * 10 ^ e := by
        rw [← abs_of_pos hpos, ← abs_mul, abs_of_pos hpos, sub_mul, div_mul_cancel₀ _ hpos.ne']
        rfl
    _ ≤ 1 / 2 * 10 ^ e := mul_le_mul_of_nonneg_right hhalf hpos.le
    _ = 10 ^ e / 2 := by ring

/-- Half a step from a number, a decimal is no farther than any other one of its grid. -/
theorem nearest_on_grid {d d' : Decimal} {v : ℚ} (hgrid : d'.exponent = d.exponent)
    (h : |d.value - v| ≤ 10 ^ d.exponent / 2) : |d.value - v| ≤ |d'.value - v| := by
  have hpos : (0 : ℚ) < 10 ^ d.exponent := by positivity
  have hunits (n : ℕ) : |(n : ℚ) * 10 ^ d.exponent - v| =
      |(n : ℚ) - v / 10 ^ d.exponent| * 10 ^ d.exponent := by
    rw [← abs_of_pos hpos, ← abs_mul, abs_of_pos hpos, sub_mul, div_mul_cancel₀ _ hpos.ne']
  unfold value at h ⊢
  rw [hgrid]
  rw [hunits] at h ⊢
  rw [hunits]
  apply mul_le_mul_of_nonneg_right _ hpos.le
  apply nearest_of_half
  exact le_of_mul_le_mul_right (by linarith) hpos

end Decimal

namespace Interval

open Format (below below_cases)

variable {f : Format} {m : ℕ} {q : ℤ}

/-- The value of an interval and what it holds, in exact numbers. -/
theorem den_pos (f : Format) (m : ℕ) (q : ℤ) : 0 < (ofFinite f m q).den :=
  Nat.mul_pos (by norm_num) (Nat.two_pow_pos _)

theorem value_ofFinite (f : Format) (m : ℕ) (q : ℤ) :
    ((ofFinite f m q).value : ℚ) / (ofFinite f m q).den = m * 2 ^ q := by
  have hpos : (0 : ℚ) < (Nat.pow 2 (-q).toNat : ℕ) := by exact_mod_cast Nat.two_pow_pos _
  change ((4 * m * Nat.pow 2 q.toNat : ℕ) : ℚ) / (4 * Nat.pow 2 (-q).toNat : ℕ) = _
  rw [two_zpow_eq]
  push_cast at hpos ⊢
  field_simp

/-- An end of the interval. -/
theorem end_eq (n : ℕ) (q : ℤ) :
    ((n * Nat.pow 2 q.toNat : ℕ) : ℚ) / (4 * Nat.pow 2 (-q).toNat : ℕ) = n * 2 ^ (q - 2) := by
  have hpos : (0 : ℚ) < (Nat.pow 2 (-q).toNat : ℕ) := by exact_mod_cast Nat.two_pow_pos _
  rw [Format.quarter, two_zpow_eq]
  push_cast at hpos ⊢
  field_simp

theorem holds_iff (d : Decimal) :
    (ofFinite f m q).holds d = true ↔ f.RoundsTo m q d.value := by
  let i := ofFinite f m q
  have hden : (0 : ℚ) < i.den := by exact_mod_cast den_pos f m q
  have hscale : (0 : ℚ) < (Nat.pow 10 (-d.exponent).toNat : ℕ) := by
    exact_mod_cast Nat.pow_pos (by norm_num)
  have hvalue : d.value = (d.digits * Nat.pow 10 d.exponent.toNat * i.den : ℕ) / i.den /
      (Nat.pow 10 (-d.exponent).toNat : ℕ) := by
    rw [Decimal.value, ten_zpow_eq]
    push_cast at hden ⊢
    field_simp
  have hlow : (i.low : ℚ) / i.den = f.lowEnd m q := end_eq _ q
  have hhigh : (i.high : ℚ) / i.den = Format.highEnd m q := end_eq _ q
  -- the same comparisons with the denominators cleared
  have hle : (i.low * Nat.pow 10 (-d.exponent).toNat ≤
        d.digits * Nat.pow 10 d.exponent.toNat * i.den ↔ f.lowEnd m q ≤ d.value) ∧
      (d.digits * Nat.pow 10 d.exponent.toNat * i.den ≤
        i.high * Nat.pow 10 (-d.exponent).toNat ↔ d.value ≤ Format.highEnd m q) := by
    rw [← hlow, ← hhigh, hvalue, le_div_iff₀ hscale, div_le_iff₀ hscale, div_mul_eq_mul_div,
      div_mul_eq_mul_div, div_le_div_iff_of_pos_right hden, div_le_div_iff_of_pos_right hden]
    constructor
    · exact_mod_cast Iff.rfl
    · exact_mod_cast Iff.rfl
  have hlt : (i.low * Nat.pow 10 (-d.exponent).toNat <
        d.digits * Nat.pow 10 d.exponent.toNat * i.den ↔ f.lowEnd m q < d.value) ∧
      (d.digits * Nat.pow 10 d.exponent.toNat * i.den <
        i.high * Nat.pow 10 (-d.exponent).toNat ↔ d.value < Format.highEnd m q) := by
    rw [← hlow, ← hhigh, hvalue, lt_div_iff₀ hscale, div_lt_iff₀ hscale, div_mul_eq_mul_div,
      div_mul_eq_mul_div, div_lt_div_iff_of_pos_right hden, div_lt_div_iff_of_pos_right hden]
    constructor
    · exact_mod_cast Iff.rfl
    · exact_mod_cast Iff.rfl
  have hclosed : i.closed = decide (m % 2 = 0) := rfl
  unfold holds
  dsimp only
  rw [hclosed]
  by_cases heven : m % 2 = 0
  · rw [decide_eq_true heven, if_pos rfl, Bool.and_eq_true, decide_eq_true_eq, decide_eq_true_eq,
      hle.1, hle.2]
    exact ⟨fun h => ⟨h.1, h.2, Or.inl heven⟩, fun h => ⟨h.low, h.high⟩⟩
  · rw [decide_eq_false heven, if_neg Bool.false_ne_true, Bool.and_eq_true, decide_eq_true_eq,
      decide_eq_true_eq, hlt.1, hlt.2]
    exact ⟨fun h => ⟨h.1.le, h.2.le, Or.inr h⟩, fun h => h.inside.resolve_left heven⟩

/-- What is found on a grid lies in the interval. -/
theorem hit_holds {i : Interval} {tie : Tie} {e : ℤ} {d : Decimal} (h : i.hit? tie e = some d) :
    i.holds d = true ∧ d.exponent = e := by
  have hmem := List.mem_of_find?_eq_some h
  refine ⟨List.find?_some h, ?_⟩
  simp only [List.mem_cons, List.not_mem_nil, or_false] at hmem
  obtain rfl | rfl | rfl := hmem <;> rfl

/-- The nearest decimal of a grid is found if it lies in the interval. -/
theorem hit_of_best {i : Interval} {tie : Tie} {e : ℤ}
    (h : i.holds (Decimal.onGrid tie i.value i.den e) = true) :
    i.hit? tie e = some (Decimal.onGrid tie i.value i.den e) := List.find?_cons_of_pos h

theorem firstHit_hit {i : Interval} {tie : Tie} {fuel : ℕ} {e : ℤ} {d : Decimal}
    (h : i.firstHit tie fuel e = some d) : ∃ e', i.hit? tie e' = some d := by
  induction fuel generalizing e with
  | zero => cases h
  | succ fuel ih =>
    rw [firstHit] at h
    cases hhit : i.hit? tie e with
    | some found =>
      rw [hhit] at h
      exact ⟨e, hhit.trans h⟩
    | none =>
      rw [hhit] at h
      exact ih h

/-- The search does not end before the last of its grids. -/
theorem firstHit_isSome {i : Interval} {tie : Tie} {fuel : ℕ} {e : ℤ}
    (h : (i.hit? tie (e - fuel)).isSome = true) : (i.firstHit tie (fuel + 1) e).isSome = true := by
  induction fuel generalizing e with
  | zero =>
    rw [Nat.cast_zero, sub_zero] at h
    obtain ⟨d, hd⟩ := Option.isSome_iff_exists.mp h
    rw [firstHit, hd]
    rfl
  | succ fuel ih =>
    rw [firstHit]
    cases i.hit? tie e with
    | some d => rfl
    | none =>
      apply ih
      have hlast : e - 1 - (fuel : ℤ) = e - ((fuel + 1 : ℕ) : ℤ) := by
        push_cast
        ring
      rwa [hlast]

end Interval

namespace Format

variable {f : Format} {m : ℕ} {q : ℤ}

/-- What is less than a quarter of the last bit away is rounded to a number. -/
theorem roundsTo_of_quarter (hm : 0 < m) {v : ℚ} (h : |v - m * 2 ^ q| < 2 ^ q / 4) :
    f.RoundsTo m q v := by
  obtain ⟨hlow, hhigh⟩ := abs_lt.mp h
  have hpos : (0 : ℚ) < 2 ^ q := by positivity
  have hfrom : f.lowEnd m q < v := by
    rw [lowEnd_eq hm]
    obtain ⟨hbelow, -⟩ | ⟨hbelow, -⟩ := below_cases f m q
    · rw [hbelow]
      push_cast
      linarith
    · rw [hbelow]
      push_cast
      linarith
  have hto : v < highEnd m q := by
    rw [highEnd_eq]
    linarith
  exact ⟨hfrom.le, hto.le, Or.inr ⟨hfrom, hto⟩⟩

/-- An odd number has half of the last bit on either side, without the ends. -/
theorem roundsTo_odd_iff (hbits : 0 < f.significandBits) (hodd : m % 2 = 1) {v : ℚ} :
    f.RoundsTo m q v ↔ |v - m * 2 ^ q| < 2 ^ q / 2 := by
  have hm : 0 < m := by omega
  have hbelow : f.below m q = 2 := by
    obtain ⟨-, hpower, -⟩ | ⟨h, -⟩ := below_cases f m q
    · obtain ⟨k, hk⟩ := Nat.exists_eq_succ_of_ne_zero hbits.ne'
      rw [hpower, hk, pow_succ, Nat.mul_mod_left] at hodd
      cases hodd
    · exact h
  have hlow : f.lowEnd m q = m * 2 ^ q - 2 ^ q / 2 := by
    rw [lowEnd_eq hm, hbelow]
    push_cast
    ring
  have hhigh : highEnd m q = m * 2 ^ q + 2 ^ q / 2 := by
    rw [highEnd_eq]
    ring
  rw [abs_lt]
  constructor
  · intro h
    obtain ⟨hfrom, hto⟩ := h.inside.resolve_left (by omega)
    constructor <;> linarith
  · intro ⟨hfrom, hto⟩
    have hinside : f.lowEnd m q < v ∧ v < highEnd m q := by constructor <;> linarith
    exact ⟨hinside.1.le, hinside.2.le, Or.inr hinside⟩

end Format

/-- The grids that are tried are fine enough in the end. -/
theorem firstHit_found {f : Format} {m : ℕ} {q : ℤ} (tie : Tie)
    (hprecise : 2 ^ (f.significandBits + 2) < 10 ^ 18) (hm : 0 < m)
    (hcanonical : f.Canonical m q) :
    ∃ d, (Interval.ofFinite f m q).firstHit tie 20
      (floorLog10 (Interval.ofFinite f m q).value (Interval.ofFinite f m q).den + 1) = some d := by
  let i := Interval.ofFinite f m q
  let e := floorLog10 i.value i.den + 1 - (19 : ℕ)
  have hden : 0 < i.den := Interval.den_pos f m q
  have hnum : 0 < i.value := Nat.mul_pos (by omega) (Nat.two_pow_pos _)
  have hvalue : (i.value : ℚ) / i.den = m * 2 ^ q := Interval.value_ofFinite f m q
  have hpos : (0 : ℚ) < 2 ^ q := by positivity
  -- after so many digits the grid is finer than the interval, which has its middle within
  have hfine : (10 : ℚ) ^ e < 2 ^ q / 2 := by
    have horder := floor_log10_le hnum hden
    rw [hvalue] at horder
    have hnarrow : (m : ℚ) < 2 ^ (f.significandBits + 1) := by exact_mod_cast hcanonical.narrow
    have hprecise' : (2 : ℚ) ^ (f.significandBits + 1) * 2 < 10 ^ 18 := by
      rw [← pow_succ]
      exact_mod_cast hprecise
    have hstep : (10 : ℚ) ^ e * 10 ^ 18 = 10 ^ floorLog10 i.value i.den := by
      have hexponent : floorLog10 i.value i.den = e + 18 := by
        change _ = floorLog10 i.value i.den + 1 - (19 : ℕ) + 18
        push_cast
        ring
      rw [hexponent, zpow_add₀ (by norm_num)]
      rfl
    have hless : (10 : ℚ) ^ e * 10 ^ 18 < 2 ^ q / 2 * 10 ^ 18 := by
      calc (10 : ℚ) ^ e * 10 ^ 18 ≤ m * 2 ^ q := hstep.trans_le horder
        _ < 2 ^ (f.significandBits + 1) * 2 ^ q := mul_lt_mul_of_pos_right hnarrow hpos
        _ ≤ 2 ^ q / 2 * 10 ^ 18 := by nlinarith
    exact lt_of_mul_lt_mul_right hless (by positivity)
  have hbest := Decimal.value_onGrid tie i.value hden e
  rw [hvalue] at hbest
  have hholds : i.holds (Decimal.onGrid tie i.value i.den e) = true := by
    apply (Interval.holds_iff _).mpr
    apply Format.roundsTo_of_quarter hm
    linarith
  have hlast : (i.hit? tie e).isSome = true := by
    rw [Interval.hit_of_best hholds]
    rfl
  exact Option.isSome_iff_exists.mp (Interval.firstHit_isSome hlast)

/-- The shortest decimal is a point of a grid that is rounded to the number; if the number is odd,
then it is the nearest point of that grid. -/
theorem shortestDecimal_rounds {f : Format} {m : ℕ} {q : ℤ} (tie : Tie)
    (hbits : 0 < f.significandBits) (hprecise : 2 ^ (f.significandBits + 2) < 10 ^ 18) (hm : 0 < m)
    (hcanonical : f.Canonical m q) :
    ∃ d : Decimal, (shortestDecimal f tie m q).value = d.value ∧ f.RoundsTo m q d.value ∧
      (m % 2 = 1 → |d.value - m * 2 ^ q| ≤ 10 ^ d.exponent / 2) := by
  let i := Interval.ofFinite f m q
  have hvalue : (i.value : ℚ) / i.den = m * 2 ^ q := Interval.value_ofFinite f m q
  obtain ⟨d, hfirst⟩ := firstHit_found tie hprecise hm hcanonical
  obtain ⟨e, hhit⟩ := Interval.firstHit_hit hfirst
  obtain ⟨hholds, rfl⟩ := Interval.hit_holds hhit
  have hrounds := (Interval.holds_iff d).mp hholds
  refine ⟨d, ?_, hrounds, ?_⟩
  · unfold shortestDecimal
    dsimp only
    rw [if_neg hm.ne', hfirst]
    exact Decimal.value_normalized d
  · intro hodd
    let best := Decimal.onGrid tie i.value i.den d.exponent
    have hbest := Decimal.value_onGrid tie i.value (Interval.den_pos f m q) d.exponent
    rw [hvalue] at hbest
    -- the nearest point is found first, since it lies in the interval whenever another one does
    have hnearest : |best.value - m * 2 ^ q| ≤ |d.value - m * 2 ^ q| :=
      Decimal.nearest_on_grid (d := best) rfl hbest
    have hinside := (Format.roundsTo_odd_iff hbits hodd).mp hrounds
    have hbestRounds : f.RoundsTo m q best.value :=
      (Format.roundsTo_odd_iff hbits hodd).mpr (hnearest.trans_lt hinside)
    have hfound := Interval.hit_of_best (i := i) ((Interval.holds_iff best).mpr hbestRounds)
    have hsame : Decimal.onGrid tie i.value i.den d.exponent = d :=
      Option.some.inj (hfound.symm.trans hhit)
    rwa [hsame] at hbest

end ScenarioHost
