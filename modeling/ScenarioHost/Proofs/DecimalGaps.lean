import Mathlib
import ScenarioHost.Decimal.Shortest

/-!
How near decimals come to the midpoints between neighbouring singles. For every binary order there
is a decimal grid that is as coarse as a single allows there; on it a decimal is a midpoint, or
misses all of them by more than a part of `2 ^ 30` of the last bit, with one exception in all. That
is a question about rests of multiples, which is answered by an Euclidean descent.
-/
namespace ScenarioHost

/-- Tells, by descent, that no multiple `a * x` with `x` up to a bound lies between `l` and `r`
modulo `m`. -/
def misses : (fuel : ℕ) → (a m l r bound : ℕ) → Bool
  | 0, _, _, _, _, _ => false
  | fuel + 1, a, m, l, r, bound =>
    decide (a * bound < l) ||
      (decide (l % a ≠ 0) && decide (r - a * (l / a) < a) &&
        misses fuel (m % a) a (a - (r - a * (l / a))) (a - l % a) ((a * bound - l) / m))

theorem not_between_of_misses {fuel a m l r bound x : ℕ} {y : ℤ}
    (h : misses fuel a m l r bound = true) (hr : r < m) (hx : x ≤ bound)
    (hlow : (m : ℤ) * y + l ≤ a * x) (hhigh : (a : ℤ) * x ≤ m * y + r) : False := by
  induction fuel generalizing a m l r bound x y with
  | zero => cases h
  | succ fuel ih =>
    -- the multiple of the modulus is one of a natural number, and below the multiple of `a`
    have hy : 0 ≤ y := by
      by_contra hneg
      have hax : (0 : ℤ) ≤ a * x := by positivity
      have hmr : (r : ℤ) < m := by exact_mod_cast hr
      have hmy : (m : ℤ) * y ≤ m * (-1) :=
        mul_le_mul_of_nonneg_left (by omega) (Int.natCast_nonneg m)
      linarith
    obtain ⟨n, rfl⟩ := Int.eq_ofNat_of_zero_le hy
    have habove : m * n + l ≤ a * x := by exact_mod_cast hlow
    have hbelow : a * x ≤ m * n + r := by exact_mod_cast hhigh
    have hbound : a * x ≤ a * bound := Nat.mul_le_mul_left a hx
    rw [misses, Bool.or_eq_true, Bool.and_eq_true, Bool.and_eq_true, decide_eq_true_eq,
      decide_eq_true_eq, decide_eq_true_eq] at h
    obtain hsmall | ⟨⟨hrest, hgap⟩, hnext⟩ := h
    · omega
    · have hdivl : a * (l / a) + l % a = l := Nat.div_add_mod l a
      have hdivm : a * (m / a) + m % a = m := Nat.div_add_mod m a
      have hsplit : a * (m / a) * n + m % a * n = m * n := by rw [← Nat.add_mul, hdivm]
      have hlastly : l % a < a := Nat.mod_lt l (by omega)
      -- what `x` is to `n` in the problem at hand, `n` is to this number in the next one
      refine ih (x := n) (y := (x : ℤ) - (l / a : ℕ) - 1 - (m / a : ℕ) * n) hnext (by omega) ?_ ?_ ?_
      · rw [Nat.le_div_iff_mul_le (by omega), Nat.mul_comm n m]
        omega
      · have hsub : ((a - (r - a * (l / a)) : ℕ) : ℤ) = a - (r - a * (l / a : ℕ)) := by
          push_cast [hgap.le, show a * (l / a) ≤ r by omega]
          rfl
        have hcast : (a : ℤ) * (m / a : ℕ) * n + (m % a : ℕ) * n = m * n := by exact_mod_cast hsplit
        rw [hsub]
        linarith
      · have hsub : ((a - l % a : ℕ) : ℤ) = a - (l % a : ℕ) := by
          push_cast [hlastly.le]
          rfl
        have hcast : (a : ℤ) * (m / a : ℕ) * n + (m % a : ℕ) * n = m * n := by exact_mod_cast hsplit
        have hlcast : (a : ℤ) * (l / a : ℕ) + (l % a : ℕ) = l := by exact_mod_cast hdivl
        rw [hsub]
        linarith

/-- The same for the multiples from a first one on. -/
theorem not_between_of_misses_from (first j : ℕ) {fuel a m l r l' r' bound x : ℕ} {y : ℤ}
    (h : misses fuel a m l' r' bound = true) (hr : r' < m) (hl' : l + m * j = l' + a * first)
    (hr' : r + m * j = r' + a * first) (hfirst : first ≤ x) (hx : x ≤ first + bound)
    (hlow : (m : ℤ) * y + l ≤ a * x) (hhigh : (a : ℤ) * x ≤ m * y + r) : False := by
  have hsub : ((x - first : ℕ) : ℤ) = x - first := by
    push_cast [hfirst]
    rfl
  have hlcast : (l : ℤ) + m * j = l' + a * first := by exact_mod_cast hl'
  have hrcast : (r : ℤ) + m * j = r' + a * first := by exact_mod_cast hr'
  apply not_between_of_misses (x := x - first) (y := y - j) h hr (by omega)
  · rw [hsub]
    linarith
  · rw [hsub]
    linarith

namespace Midpoints

/-! Grids. All numbers are in units of `2 ^ q / (2 ^ 30 * spread q)`. -/

def order (q : ℤ) : ℤ := -((-q * 30103) / 100000)

def step (q : ℤ) : ℕ := 10 ^ (order q).toNat * 2 ^ (30 + (-q).toNat)

def spread (q : ℤ) : ℕ := 10 ^ (-order q).toNat * 2 ^ q.toNat

def most (q : ℤ) : ℕ := 2 ^ 54 * spread q / step q

def noneBelow (q : ℤ) : Bool :=
  misses 40 (step q) (2 ^ 30 * spread q) ((2 ^ 29 - 1) * spread q) (2 ^ 29 * spread q - 1) (most q)

def noneAbove (q : ℤ) : Bool :=
  misses 40 (step q) (2 ^ 30 * spread q) (2 ^ 29 * spread q + 1) ((2 ^ 29 + 1) * spread q) (most q)

def orders : List ℤ := (List.range 254).map fun (i : ℕ) => (i : ℤ) - 149

theorem none_near : ∀ q ∈ orders, noneAbove q = true ∧ (q = -107 ∨ noneBelow q = true) := by
  decide +kernel

def exceptional : ℕ := 7038531

/-- Neither the points before the exception are just below a midpoint, nor those after it. -/
theorem none_below_but_exceptional {n : ℕ} (hn : n ≤ most (-107)) {j : ℤ}
    (hlow : ((2 ^ 30 * spread (-107) : ℕ) : ℤ) * j + ((2 ^ 29 - 1) * spread (-107) : ℕ) ≤
      step (-107) * n)
    (hhigh : (step (-107) : ℤ) * n ≤
      ((2 ^ 30 * spread (-107) : ℕ) : ℤ) * j + (2 ^ 29 * spread (-107) - 1 : ℕ)) :
    n = exceptional := by
  obtain hless | hsame | hmore := Nat.lt_trichotomy n exceptional
  · have hmisses : misses 40 (step (-107)) (2 ^ 30 * spread (-107))
        ((2 ^ 29 - 1) * spread (-107)) (2 ^ 29 * spread (-107) - 1) (exceptional - 1) = true := by
      decide
    exact (not_between_of_misses hmisses (by decide) (by omega) hlow hhigh).elim
  · exact hsame
  · let first := exceptional + 1
    let turns := 11420671
    let low := (2 ^ 29 - 1) * spread (-107) + 2 ^ 30 * spread (-107) * turns - step (-107) * first
    let high := 2 ^ 29 * spread (-107) - 1 + 2 ^ 30 * spread (-107) * turns - step (-107) * first
    have hmisses : misses 40 (step (-107)) (2 ^ 30 * spread (-107)) low high
        (most (-107) - first) = true := by
      decide
    exact (not_between_of_misses_from first turns hmisses (by decide) (by decide)
      (by decide) (by omega) (by omega) hlow hhigh).elim

def gap (q : ℤ) (n : ℕ) (j : ℤ) : ℤ :=
  step q * n - ((2 ^ 30 * spread q : ℕ) * j + (2 ^ 29 * spread q : ℕ))

theorem spread_pos (q : ℤ) : 0 < spread q := by
  unfold spread
  positivity

theorem gap_cases {q : ℤ} (hq : q ∈ orders) {n : ℕ} (hn : n ≤ most q) (j : ℤ) :
    gap q n j = 0 ∨ (spread q : ℤ) < |gap q n j| ∨
      q = -107 ∧ n = exceptional ∧ gap q n j < 0 := by
  have hpos := spread_pos q
  obtain ⟨hnoneAbove, hnoneBelow⟩ := none_near q hq
  by_cases hfar : (spread q : ℤ) < |gap q n j|
  · exact Or.inr (Or.inl hfar)
  · obtain ⟨hlow, hhigh⟩ := abs_le.mp (not_lt.mp hfar)
    unfold gap at hlow hhigh
    obtain hneg | hzero | habove := lt_trichotomy (gap q n j) 0
    · -- below a midpoint, where the exception is
      have hbelow := hneg
      unfold gap at hbelow
      have hlow' : ((2 ^ 30 * spread q : ℕ) : ℤ) * j + ((2 ^ 29 - 1) * spread q : ℕ) ≤
          step q * n := by
        push_cast at hlow ⊢
        linarith
      have hhigh' : (step q : ℤ) * n ≤
          ((2 ^ 30 * spread q : ℕ) : ℤ) * j + (2 ^ 29 * spread q - 1 : ℕ) := by
        have hpred : ((2 ^ 29 * spread q - 1 : ℕ) : ℤ) = (2 ^ 29 * spread q : ℕ) - 1 := by omega
        rw [hpred]
        omega
      obtain rfl | hnone := hnoneBelow
      · exact Or.inr (Or.inr ⟨rfl, none_below_but_exceptional hn hlow' hhigh', hneg⟩)
      · exact (not_between_of_misses hnone (by omega) hn hlow' hhigh').elim
    · exact Or.inl hzero
    · have habove' := habove
      unfold gap at habove'
      refine (not_between_of_misses hnoneAbove ?_ hn (y := j) ?_ ?_).elim
      · omega
      · push_cast at habove' ⊢
        linarith
      · push_cast at hhigh ⊢
        linarith

/-! The same in numbers. -/

theorem zpow_eq_div {b : ℕ} (hb : b ≠ 0) (e : ℤ) :
    (b : ℚ) ^ e = (b ^ e.toNat : ℕ) / (b ^ (-e).toNat : ℕ) := by
  have hb' : (b : ℚ) ≠ 0 := by exact_mod_cast hb
  have hsplit : (b : ℚ) ^ e = b ^ ((e.toNat : ℤ) - ((-e).toNat : ℤ)) := by
    rw [Int.toNat_sub_toNat_neg]
  rw [hsplit, zpow_sub₀ hb', zpow_natCast, zpow_natCast]
  push_cast
  rfl

/-- The next finer grid has steps that are shorter than the last bit. -/
theorem finer_short : ∀ q ∈ orders,
    10 ^ (order q - 1).toNat * 2 ^ (-q).toNat * 2 ^ 29 <
      2 ^ q.toNat * 10 ^ (-(order q - 1)).toNat * 0x1FFFFFFF := by
  decide +kernel

/-- The grid is the finest whose steps are as long as the last bit, or nearly. -/
theorem order_le {q : ℤ} (hq : q ∈ orders) {k : ℤ}
    (h : (2 : ℚ) ^ q - 2 ^ (q - 29) ≤ 10 ^ k) : order q ≤ k := by
  have hfiner : (10 : ℚ) ^ (order q - 1) < 2 ^ q - 2 ^ (q - 29) := by
    have hten := zpow_eq_div (b := 10) (by norm_num) (order q - 1)
    have htwo := zpow_eq_div (b := 2) (by norm_num) q
    have hshort := finer_short q hq
    have hcast : (10 : ℚ) ^ (order q - 1).toNat * 2 ^ (-q).toNat * 2 ^ 29 <
        2 ^ q.toNat * 10 ^ (-(order q - 1)).toNat * 0x1FFFFFFF := by exact_mod_cast hshort
    have hlast : (2 : ℚ) ^ q - 2 ^ (q - 29) = 2 ^ q * 0x1FFFFFFF / 2 ^ 29 := by
      rw [zpow_sub₀ (by norm_num)]
      field_simp
      norm_num
    push_cast at hten htwo
    rw [hlast, hten, htwo, div_mul_eq_mul_div, div_div, div_lt_div_iff₀ (by positivity) (by positivity)]
    linarith
  have hexponent := (zpow_lt_zpow_iff_right₀ (by norm_num)).mp (hfiner.trans_le h)
  omega

/-- A point of the grid in the units of the search. -/
theorem units_of_point (q : ℤ) (n : ℕ) :
    (n : ℚ) * 10 ^ order q / 2 ^ q * (2 ^ 30 * spread q) = step q * n := by
  have hten := zpow_eq_div (b := 10) (by norm_num) (order q)
  have htwo := zpow_eq_div (b := 2) (by norm_num) q
  have hten0 : (10 : ℚ) ^ (-order q).toNat ≠ 0 := by positivity
  have htwo0 : (2 : ℚ) ^ (-q).toNat ≠ 0 := by positivity
  have htwo1 : (2 : ℚ) ^ q.toNat ≠ 0 := by positivity
  unfold step spread
  push_cast at hten htwo ⊢
  rw [hten, htwo, pow_add]
  field_simp

/-- The search reaches up to `2 ^ 24` last bits. -/
theorem le_most {q : ℤ} {n : ℕ} (hn : (n : ℚ) * 10 ^ order q < 2 ^ 24 * 2 ^ q) : n ≤ most q := by
  have hq0 : (0 : ℚ) < 2 ^ q := by positivity
  have hstep : 0 < step q := by
    unfold step
    positivity
  have hless : (n : ℚ) * 10 ^ order q / 2 ^ q * (2 ^ 30 * spread q) ≤
      2 ^ 24 * (2 ^ 30 * spread q) := by
    apply mul_le_mul_of_nonneg_right _ (by positivity)
    rw [div_le_iff₀ hq0]
    exact hn.le
  rw [units_of_point] at hless
  have hcast : ((n * step q : ℕ) : ℚ) ≤ (2 ^ 54 * spread q : ℕ) := by
    push_cast
    linarith
  unfold most
  rw [Nat.le_div_iff_mul_le hstep]
  exact_mod_cast hcast

theorem gap_eq (q : ℤ) (n : ℕ) (j : ℤ) : (gap q n j : ℚ) =
    ((n : ℚ) * 10 ^ order q - (j + 1 / 2) * 2 ^ q) * (2 ^ 30 * spread q / 2 ^ q) := by
  calc (gap q n j : ℚ)
      = step q * n - (j + 1 / 2) * (2 ^ 30 * spread q) := by
        unfold gap
        push_cast
        ring
    _ = _ := by
        rw [← units_of_point]
        field_simp

/-- A decimal on the grid is a midpoint, or more than `2 ^ -30` last bits away from all of them, but
for the exception. -/
theorem midpoint_or_far {q : ℤ} (hq : q ∈ orders) {n : ℕ}
    (hn : (n : ℚ) * 10 ^ order q < 2 ^ 24 * 2 ^ q) (j : ℤ) :
    (n : ℚ) * 10 ^ order q = (j + 1 / 2) * 2 ^ q ∨
      2 ^ (q - 30) < |(n : ℚ) * 10 ^ order q - (j + 1 / 2) * 2 ^ q| ∨
      q = -107 ∧ n = exceptional ∧ (n : ℚ) * 10 ^ order q < (j + 1 / 2) * 2 ^ q := by
  have hspread : (0 : ℚ) < spread q := by exact_mod_cast spread_pos q
  have hunit : (0 : ℚ) < 2 ^ 30 * spread q / 2 ^ q := by positivity
  have hscaled := gap_eq q n j
  obtain hzero | hfar | ⟨hexception, hn', hneg⟩ := gap_cases hq (le_most hn) j
  · left
    rw [hzero, Int.cast_zero, eq_comm, mul_eq_zero] at hscaled
    exact sub_eq_zero.mp (hscaled.resolve_right hunit.ne')
  · right
    left
    have hcast : (spread q : ℚ) < |(gap q n j : ℚ)| := by exact_mod_cast hfar
    have hone : (2 : ℚ) ^ (q - 30) * (2 ^ 30 * spread q / 2 ^ q) = spread q := by
      rw [zpow_sub₀ (by norm_num)]
      field_simp
    rw [hscaled, abs_mul, abs_of_pos hunit] at hcast
    exact lt_of_mul_lt_mul_right (hone.trans_lt hcast) hunit.le
  · right
    right
    refine ⟨hexception, hn', ?_⟩
    have hcast : (gap q n j : ℚ) < 0 := by exact_mod_cast hneg
    rw [hscaled] at hcast
    exact sub_neg.mp (neg_of_mul_neg_left hcast hunit.le)

end Midpoints

end ScenarioHost
