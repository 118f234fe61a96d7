import ScenarioHost.Binary.Double
import ScenarioHost.Proofs.DecimalGaps
import ScenarioHost.Proofs.ShortestDecimals

/-!
Shortest decimals of singles that are rounded to a double first, and only then to a single. A double
has the ends of all intervals of singles among its numbers, so that the first rounding does not
leave an interval; at worst it meets an end. Even singles are rounded to from there too, and for odd
ones the decimal would have to be nearer to a midpoint than decimals are, but for one of them.
-/
namespace ScenarioHost

open Format (double single)

def Midpoints.Missed (m : ℕ) (q : ℤ) : Prop := m = 11420669 ∧ q = -107

instance (m : ℕ) (q : ℤ) : Decidable (Midpoints.Missed m q) :=
  inferInstanceAs (Decidable (m = 11420669 ∧ q = -107))

section Magnitude

variable {m : ℕ} {q : ℤ}

theorem single_order (hcanonical : single.Canonical m q)
    (hfinite : single.code m q < single.infinity) : q ∈ Midpoints.orders := by
  have hleast : -149 ≤ q := hcanonical.least_le
  have hcode : (q - -149).toNat * 2 ^ 23 + m < 255 * 2 ^ 23 := hfinite
  have hfull : q = -149 ∨ 2 ^ 23 ≤ m := hcanonical.full
  refine List.mem_map.mpr ⟨(q + 149).toNat, List.mem_range.mpr ?_, ?_⟩
  · omega
  · rw [Int.toNat_of_nonneg (by omega), add_sub_cancel_right]

theorem order_bounds (hq : q ∈ Midpoints.orders) : -149 ≤ q ∧ q ≤ 104 := by
  obtain ⟨i, hi, rfl⟩ := List.mem_map.mp hq
  have hbound := List.mem_range.mp hi
  omega

/-- Both ends of the interval around a single are doubles. -/
theorem represents_ends (hcanonical : single.Canonical m q) :
    double.Represents (single.lowEnd m q) ∧ double.Represents (Format.highEnd m q) := by
  have hnarrow : m < 2 ^ 24 := hcanonical.narrow
  have hleast : -149 ≤ q := hcanonical.least_le
  have horder : double.least ≤ q - 2 := by
    change -1074 ≤ q - 2
    omega
  have hwide (n : ℕ) (hn : n ≤ 4 * m + 2) : n ≤ 2 ^ (double.significandBits + 1) := by
    change n ≤ 2 ^ 53
    omega
  exact ⟨⟨_, _, hwide _ (by omega), horder, rfl⟩, ⟨_, _, hwide _ le_rfl, horder, rfl⟩⟩

theorem half_lt_of_roundsTo {v : ℚ} (hm : 0 < m) (h : single.RoundsTo m q v) :
    2 ^ q / 2 ≤ v := by
  have hone : (1 : ℚ) ≤ m := by exact_mod_cast hm
  have hpos : (0 : ℚ) < 2 ^ q := by positivity
  have hlow := h.low
  rw [Format.lowEnd_eq hm] at hlow
  have hbelow : (single.below m q : ℚ) ≤ 2 := by
    obtain ⟨h, -⟩ | ⟨h, -⟩ := Format.below_cases single m q <;> rw [h] <;> norm_num
  calc (2 : ℚ) ^ q / 2 = 1 / 2 * 2 ^ q := by ring
    _ ≤ (m - single.below m q / 4) * 2 ^ q := mul_le_mul_of_nonneg_right (by linarith) hpos.le
    _ ≤ v := hlow

theorem pos_of_roundsTo {v : ℚ} (hm : 0 < m) (h : single.RoundsTo m q v) : 0 < v := by
  have hpos : (0 : ℚ) < 2 ^ q / 2 := by positivity
  exact hpos.trans_le (half_lt_of_roundsTo hm h)

theorem lt_of_roundsTo {v : ℚ} (hcanonical : single.Canonical m q) (h : single.RoundsTo m q v) :
    v < 2 ^ 24 * 2 ^ q := by
  have hnarrow : (m : ℚ) + 1 ≤ 2 ^ 24 := by exact_mod_cast hcanonical.narrow
  have hpos : (0 : ℚ) < 2 ^ q := by positivity
  have hhigh := h.high
  rw [Format.highEnd_eq] at hhigh
  exact hhigh.trans_lt (mul_lt_mul_of_pos_right (by linarith) hpos)

variable {num den : ℕ}

theorem num_pos_of_roundsTo (hm : 0 < m) (h : single.RoundsTo m q (num / den)) : 0 < num := by
  have hpos := pos_of_roundsTo hm h
  apply Nat.pos_of_ne_zero
  rintro rfl
  rw [Nat.cast_zero, zero_div] at hpos
  exact lt_irrefl _ hpos

variable (hm : 0 < m) (hcanonical : single.Canonical m q) (hden : 0 < den)
  (h : single.RoundsTo m q (num / den))
include hm hcanonical hden h

/-- The last bit of the double is far below that of the single. -/
theorem double_lastBit : double.lastBit (floorLog2 num den) ≤ q - 29 := by
  have hnum := num_pos_of_roundsTo hm h
  have hleast : -149 ≤ q := hcanonical.least_le
  have horder : (2 : ℚ) ^ floorLog2 num den < 2 ^ (24 + q) := by
    rw [zpow_add₀ (by norm_num)]
    exact (floor_log_bounds hnum hden).1.trans_lt (lt_of_roundsTo hcanonical h)
  have hexponent := (zpow_lt_zpow_iff_right₀ (by norm_num)).mp horder
  change max (floorLog2 num den - 52) (-1074) ≤ q - 29
  omega

theorem double_finite (hfinite : single.code m q < single.infinity) :
    double.roundRatio num den < double.infinity := by
  have hlast := double_lastBit hm hcanonical hden h
  obtain ⟨-, horder⟩ := order_bounds (single_order hcanonical hfinite)
  apply Format.roundRatio_lt (num_pos_of_roundsTo hm h) hden
  change (double.lastBit (floorLog2 num den) - -1074).toNat + 2 < 2047
  omega

/-- The double stays between the ends. -/
theorem double_between :
    single.lowEnd m q ≤ double.rounded num den ∧ double.rounded num den ≤ Format.highEnd m q := by
  obtain ⟨hlow, hhigh⟩ := represents_ends hcanonical
  have hnum := num_pos_of_roundsTo hm h
  exact ⟨Format.le_rounded hnum hden hlow h.low, Format.rounded_le hnum hden hhigh h.high⟩

theorem double_near : |double.rounded num den - num / den| ≤ 2 ^ (q - 30) := by
  have hlast := double_lastBit hm hcanonical hden h
  calc |double.rounded num den - num / den|
      ≤ 2 ^ double.lastBit (floorLog2 num den) / 2 := Format.rounded_half hden
    _ ≤ 2 ^ (q - 29) / 2 := by
        apply div_le_div_of_nonneg_right _ (by norm_num)
        exact zpow_le_zpow_right₀ (by norm_num) hlast
    _ = 2 ^ (q - 30) := by
        have hnext : q - 29 = q - 30 + 1 := by ring
        rw [hnext, zpow_add_one₀ (by norm_num), mul_div_cancel_right₀ _ (by norm_num)]

end Magnitude

/-- A decimal that is nearest to an odd single on its grid is not close to a midpoint. -/
theorem not_close_to_midpoint {m : ℕ} {q : ℤ} (hq : q ∈ Midpoints.orders) {d : Decimal}
    (hbound : d.value < 2 ^ 24 * 2 ^ q) (hnearest : |d.value - m * 2 ^ q| ≤ 10 ^ d.exponent / 2)
    {j : ℤ} (hmidpoint : |(j + 1 / 2 : ℚ) * 2 ^ q - m * 2 ^ q| = 2 ^ q / 2)
    (hclose : |d.value - (j + 1 / 2) * 2 ^ q| ≤ 2 ^ (q - 30)) :
    d.value = (j + 1 / 2) * 2 ^ q ∨
      q = -107 ∧ d.value = Midpoints.exceptional * 10 ^ Midpoints.order q ∧
        d.value < (j + 1 / 2) * 2 ^ q := by
  -- the grid is about as coarse as the last bit
  have hcoarse : (2 : ℚ) ^ q - 2 ^ (q - 29) ≤ 10 ^ d.exponent := by
    have htriangle := abs_sub_le ((j + 1 / 2 : ℚ) * 2 ^ q) d.value (m * 2 ^ q)
    have hsmall : (2 : ℚ) ^ (q - 29) = 2 * 2 ^ (q - 30) := by
      rw [← zpow_one_add₀ (by norm_num)]
      congr 1
      ring
    rw [hmidpoint, abs_sub_comm _ d.value] at htriangle
    linarith
  obtain ⟨k, hk⟩ := Int.eq_ofNat_of_zero_le (sub_nonneg.mpr (Midpoints.order_le hq hcoarse))
  have hgrid : d.value = ((d.digits * 10 ^ k : ℕ) : ℚ) * 10 ^ Midpoints.order q := by
    have hexponent : d.exponent = k + Midpoints.order q := by omega
    rw [Decimal.value, hexponent, zpow_add₀ (by norm_num), zpow_natCast]
    push_cast
    ring
  rw [hgrid] at hbound hclose ⊢
  obtain hsame | hfar | ⟨hexception, hn, hbelow⟩ := Midpoints.midpoint_or_far hq hbound j
  · exact Or.inl hsame
  · exact absurd hclose (not_le.mpr hfar)
  · exact Or.inr ⟨hexception, by rw [hn], hbelow⟩

/-- The exception is close to one midpoint only. -/
theorem missed_of_exceptional {m : ℕ} {q : ℤ} {v : ℚ} (hq : q = -107)
    (hv : v = Midpoints.exceptional * 10 ^ Midpoints.order q)
    (hclose : |v - (m + 1 / 2) * 2 ^ q| ≤ 2 ^ (q - 30)) : Midpoints.Missed m q := by
  subst hq
  refine ⟨?_, rfl⟩
  have horder : Midpoints.order (-107) = -32 := by decide
  rw [horder, Midpoints.exceptional] at hv
  rw [hv, abs_le] at hclose
  obtain ⟨hlow, hhigh⟩ := hclose
  norm_num at hlow hhigh
  have hfrom : (m : ℚ) < 11420669 + 1 := by linarith
  have hto : (11420669 : ℚ) - 1 < m := by linarith
  have hfrom' : m < 11420669 + 1 := by exact_mod_cast hfrom
  have hto' : 11420669 < m + 1 := by
    have hcast : (11420669 : ℚ) < (m + 1 : ℕ) := by
      push_cast
      linarith
    exact_mod_cast hcast
  omega

/-! The ends of the interval around an odd single are midpoints between neighbours. -/

theorem lowEnd_odd {m : ℕ} {q : ℤ} (hodd : m % 2 = 1) :
    single.lowEnd m q = (((m : ℤ) - 1 : ℤ) + 1 / 2) * 2 ^ q := by
  have hbelow : single.below m q = 2 := by
    obtain ⟨-, hpower, -⟩ | ⟨hbelow, -⟩ := Format.below_cases single m q
    · rw [hpower] at hodd
      exact absurd hodd (by decide)
    · exact hbelow
  rw [Format.lowEnd_eq (by omega), hbelow]
  push_cast
  ring

theorem highEnd_midpoint (m : ℕ) (q : ℤ) :
    Format.highEnd m q = ((m : ℤ) + 1 / 2) * 2 ^ q := by
  rw [Format.highEnd_eq]
  push_cast
  ring

theorem lowEnd_distance (m : ℕ) (q : ℤ) :
    |(((m : ℤ) - 1 : ℤ) + 1 / 2 : ℚ) * 2 ^ q - m * 2 ^ q| = 2 ^ q / 2 := by
  have hhalf : (0 : ℚ) < 2 ^ q / 2 := by positivity
  rw [← abs_of_pos hhalf, ← abs_neg]
  congr 1
  push_cast
  ring

theorem highEnd_distance (m : ℕ) (q : ℤ) :
    |(((m : ℤ) : ℚ) + 1 / 2) * 2 ^ q - m * 2 ^ q| = 2 ^ q / 2 := by
  have hhalf : (0 : ℚ) < 2 ^ q / 2 := by positivity
  rw [← abs_of_pos hhalf]
  congr 1
  push_cast
  ring

/-- Rounded to a double, the nearest decimal of a single on its grid is still rounded to the single,
except for one magnitude. -/
theorem double_roundsTo {m : ℕ} {q : ℤ} {num den : ℕ} {d : Decimal} (hm : 0 < m)
    (hcanonical : single.Canonical m q) (hfinite : single.code m q < single.infinity)
    (hden : 0 < den) (hvalue : (num / den : ℚ) = d.value) (h : single.RoundsTo m q d.value)
    (hnearest : m % 2 = 1 → |d.value - m * 2 ^ q| ≤ 10 ^ d.exponent / 2)
    (hother : ¬ Midpoints.Missed m q) : single.RoundsTo m q (double.rounded num den) := by
  rw [← hvalue] at h
  obtain ⟨hlow, hhigh⟩ := double_between hm hcanonical hden h
  obtain heven | hodd := Nat.mod_two_eq_zero_or_one m
  · exact ⟨hlow, hhigh, Or.inl heven⟩
  · have horder := single_order hcanonical hfinite
    have hnear := double_near hm hcanonical hden h
    have hbound := lt_of_roundsTo hcanonical h
    obtain ⟨hfrom, hto⟩ := h.inside.resolve_left (by omega)
    rw [hvalue] at hnear hbound hfrom hto
    refine ⟨hlow, hhigh, Or.inr ⟨lt_of_le_of_ne hlow ?_, lt_of_le_of_ne hhigh ?_⟩⟩
    · -- at the lower end
      intro hmet
      rw [← hmet, lowEnd_odd hodd, abs_sub_comm] at hnear
      rw [lowEnd_odd hodd] at hfrom
      obtain hsame | ⟨-, -, hbelow⟩ :=
        not_close_to_midpoint horder hbound (hnearest hodd) (lowEnd_distance m q) hnear
      · exact hfrom.ne' hsame
      · exact lt_asymm hfrom hbelow
    · -- at the upper end, where the exception is
      intro hmet
      rw [hmet, highEnd_midpoint, abs_sub_comm] at hnear
      rw [highEnd_midpoint] at hto
      obtain hsame | ⟨hexception, hv, -⟩ :=
        not_close_to_midpoint horder hbound (hnearest hodd) (highEnd_distance m q) hnear
      · exact hto.ne hsame
      · apply hother
        apply missed_of_exceptional hexception hv
        exact_mod_cast hnear

end ScenarioHost
