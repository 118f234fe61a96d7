import ScenarioHost.Proofs.Rounding

/-!
The order of single precision numbers. A number that is not NaN has its place among the rationals
with an infinity on either side, and the comparison of two numbers is that of their places. A sum
with a number above zero is never below the other term, whatever is lost in rounding.
-/
namespace ScenarioHost

namespace Reading

def level? : Reading → Option (WithBot (WithTop ℚ))
  | .nan => none
  | .infinite negative => some (if negative then ⊥ else ⊤)
  | .finite negative m q => some ((scaled negative m * 2 ^ q : ℚ) : WithTop ℚ)

variable {r r' : Reading}

theorem level_of_value {v : ℚ} (h : r.value? = some v) : r.level? = some (v : WithTop ℚ) := by
  obtain ⟨negative, m, q, rfl⟩ := exists_of_value h
  obtain rfl : (scaled negative m : ℚ) * 2 ^ q = v := Option.some.inj h
  rfl

theorem level_eq_none : r.level? = none ↔ r.isNan = true := by
  cases r with
  | nan => exact iff_of_true rfl rfl
  | infinite negative => exact iff_of_false (by simp [level?]) Bool.false_ne_true
  | finite negative m q => exact iff_of_false (by simp [level?]) Bool.false_ne_true

/-- A significand on a finer grid. -/
theorem scaled_refine (n p r : ℤ) (h : r ≤ p) :
    (n : ℚ) * 2 ^ p = ((n * Nat.pow 2 (p - r).toNat : ℤ) : ℚ) * 2 ^ r := by
  have hstep : (2 : ℚ) ^ p = 2 ^ (p - r).toNat * 2 ^ r := by
    rw [← zpow_natCast, ← zpow_add₀ (by norm_num), Int.toNat_of_nonneg (by omega), sub_add_cancel]
  rw [hstep, ← mul_assoc, Nat.pow_eq]
  push_cast
  rfl

theorem less_finite {a b : Bool} {m n : ℕ} {p q : ℤ} :
    less (.finite a m p) (.finite b n q) = true ↔
      (scaled a m : ℚ) * 2 ^ p < scaled b n * 2 ^ q := by
  have hstep : (0 : ℚ) < 2 ^ min p q := by positivity
  rw [scaled_refine _ p _ (min_le_left p q), scaled_refine _ q _ (min_le_right p q),
    mul_lt_mul_iff_left₀ hstep, Int.cast_lt]
  exact decide_eq_true_iff

/-- One number is less than another exactly if its place is below. -/
theorem less_iff : r.less r' = true ↔ ∃ a b, r.level? = some a ∧ r'.level? = some b ∧ a < b := by
  have hplaces {x y : WithBot (WithTop ℚ)} :
      (∃ a b, some x = some a ∧ some y = some b ∧ a < b) ↔ x < y := by simp
  cases r with
  | nan => simp [less, level?]
  | infinite negative =>
    cases r' with
    | nan => simp [less, level?]
    | infinite negative' =>
      unfold level?
      rw [hplaces]
      cases negative <;> cases negative' <;> simp [less]
    | finite b n q =>
      unfold level?
      rw [hplaces]
      cases negative with
      | false => simp [less]
      | true => exact iff_of_true rfl (WithBot.bot_lt_coe _)
  | finite a m p =>
    cases r' with
    | nan => simp [less, level?]
    | infinite negative' =>
      unfold level?
      rw [hplaces]
      cases negative' with
      | false => exact iff_of_true rfl (WithBot.coe_lt_coe.mpr (WithTop.coe_lt_top _))
      | true => simp [less]
    | finite b n q =>
      unfold level?
      rw [hplaces, less_finite, WithBot.coe_lt_coe, WithTop.coe_lt_coe]

end Reading

namespace Single

open Format (single)

def level? (x : Single) : Option (WithBot (WithTop ℚ)) := x.reading.level?

def AtMost (x y : Single) : Prop := x.isNan = false ∧ y.isNan = false ∧ y.less x = false

variable {x y z : Single}

theorem exists_level (h : x.isNan = false) : ∃ a, x.level? = some a := by
  apply Option.ne_none_iff_exists'.mp
  intro hnone
  have hnan := Reading.level_eq_none.mp hnone
  exact Bool.false_ne_true (h.symm.trans hnan)

theorem isNan_of_level {a : WithBot (WithTop ℚ)} (h : x.level? = some a) : x.isNan = false := by
  apply Bool.eq_false_iff.mpr
  intro hnan
  have hnone := Reading.level_eq_none.mpr hnan
  exact Option.some_ne_none a (h.symm.trans hnone)

theorem less_iff : x.less y = true ↔ ∃ a b, x.level? = some a ∧ y.level? = some b ∧ a < b :=
  Reading.less_iff

theorem atMost_iff : x.AtMost y ↔ ∃ a b, x.level? = some a ∧ y.level? = some b ∧ a ≤ b := by
  constructor
  · intro ⟨hx, hy, hless⟩
    obtain ⟨a, ha⟩ := exists_level hx
    obtain ⟨b, hb⟩ := exists_level hy
    refine ⟨a, b, ha, hb, ?_⟩
    by_contra hlt
    have hback := less_iff.mpr ⟨b, a, hb, ha, not_le.mp hlt⟩
    exact Bool.false_ne_true (hless.symm.trans hback)
  · intro ⟨a, b, ha, hb, hle⟩
    refine ⟨isNan_of_level ha, isNan_of_level hb, Bool.eq_false_iff.mpr ?_⟩
    intro hless
    obtain ⟨b', a', hb', ha', hlt⟩ := less_iff.mp hless
    obtain rfl : a = a' := Option.some.inj (ha.symm.trans ha')
    obtain rfl : b = b' := Option.some.inj (hb.symm.trans hb')
    exact absurd hle (not_le.mpr hlt)

theorem AtMost.refl (h : x.isNan = false) : x.AtMost x := by
  obtain ⟨a, ha⟩ := exists_level h
  exact atMost_iff.mpr ⟨a, a, ha, ha, le_refl a⟩

theorem AtMost.trans (first : x.AtMost y) (second : y.AtMost z) : x.AtMost z := by
  obtain ⟨a, b, ha, hb, hab⟩ := atMost_iff.mp first
  obtain ⟨b', c, hb', hc, hbc⟩ := atMost_iff.mp second
  obtain rfl : b = b' := Option.some.inj (hb.symm.trans hb')
  exact atMost_iff.mpr ⟨a, c, ha, hc, hab.trans hbc⟩

theorem reading_of_isNan (h : x.isNan = true) : x.reading = .nan := by
  unfold isNan at h
  cases hx : x.reading with
  | nan => rfl
  | infinite negative =>
    rw [hx] at h
    cases h
  | finite negative m q =>
    rw [hx] at h
    cases h

theorem reading_infinite (negative : Bool) :
    (ofReading (.infinite negative)).reading = .infinite negative := by
  cases negative <;> decide

/-! Sums. -/

theorem isNan_add_left (y : Single) (h : x.isNan = true) : (x + y).isNan = true := by
  have hsum : x + y = nan := by
    change add x y = nan
    unfold add
    rw [reading_of_isNan h]
  rw [hsum]
  decide

theorem isNan_add_right (x : Single) (h : y.isNan = true) : (x + y).isNan = true := by
  have hsum : x + y = nan := by
    change add x y = nan
    unfold add
    rw [reading_of_isNan h]
    cases x.reading <;> rfl
  rw [hsum]
  decide

theorem level_zero : zero.level? = some (((0 : ℚ) : WithTop ℚ) : WithBot (WithTop ℚ)) := by
  have hzero : zero.reading = .finite false 0 (-149) := by decide
  unfold level?
  rw [hzero]
  simp [Reading.level?, Reading.scaled]

/-- What a number not below zero is. -/
theorem time_cases (h : zero.AtMost x) :
    x.reading = .infinite false ∨ ∃ v, x.value? = some v ∧ 0 ≤ v := by
  obtain ⟨a, b, ha, hb, hle⟩ := atMost_iff.mp h
  obtain rfl : ((0 : ℚ) : WithTop ℚ) = a := Option.some.inj (level_zero.symm.trans ha)
  unfold level? at hb
  cases hr : x.reading with
  | nan =>
    rw [hr] at hb
    cases hb
  | infinite negative =>
    rw [hr] at hb
    cases negative with
    | false => exact Or.inl rfl
    | true =>
      obtain rfl : ⊥ = b := Option.some.inj hb
      exact absurd hle (by simp)
  | finite negative m q =>
    have hv : x.value? = some ((Reading.scaled negative m : ℚ) * 2 ^ q) := by
      unfold value?
      rw [hr]
      rfl
    rw [Reading.level_of_value hv] at hb
    obtain rfl := Option.some.inj hb
    exact Or.inr ⟨_, hv, WithTop.coe_le_coe.mp (WithBot.coe_le_coe.mp hle)⟩

/-- What a number above zero is. -/
theorem positive_cases (h : zero.less x = true) :
    x.reading = .infinite false ∨ ∃ v, x.value? = some v ∧ 0 < v := by
  have hatmost : zero.AtMost x := by
    obtain ⟨a, b, ha, hb, hlt⟩ := less_iff.mp h
    exact atMost_iff.mpr ⟨a, b, ha, hb, hlt.le⟩
  obtain hinfinite | ⟨v, hv, -⟩ := time_cases hatmost
  · exact Or.inl hinfinite
  · obtain ⟨a, b, ha, hb, hlt⟩ := less_iff.mp h
    obtain rfl := Option.some.inj (level_zero.symm.trans ha)
    have hlevel : x.level? = some (v : WithTop ℚ) := Reading.level_of_value hv
    obtain rfl := Option.some.inj (hlevel.symm.trans hb)
    exact Or.inr ⟨v, hv, WithTop.coe_lt_coe.mp (WithBot.coe_lt_coe.mp hlt)⟩

theorem atMost_of_infinite (h : x.isNan = false) (hy : y.reading = .infinite false) :
    x.AtMost y := by
  obtain ⟨a, ha⟩ := exists_level h
  refine atMost_iff.mpr ⟨a, ⊤, ha, ?_, le_top⟩
  unfold level?
  rw [hy]
  rfl

theorem atMost_of_values {u v : ℚ} (hx : x.value? = some u) (hy : y.value? = some v)
    (h : u ≤ v) : x.AtMost y := by
  refine atMost_iff.mpr ⟨_, _, Reading.level_of_value hx, Reading.level_of_value hy, ?_⟩
  exact WithBot.coe_le_coe.mpr (WithTop.coe_le_coe.mpr h)

/-- A sum above zero is the exact sum, rounded once. -/
theorem add_finite {u v : ℚ} (hx : x.value? = some u) (hy : y.value? = some v)
    (hsum : 0 < u + v) :
    ∃ num den : ℕ, 0 < num ∧ 0 < den ∧ (num / den : ℚ) = u + v ∧
      x + y = ofRatio false num den := by
  obtain ⟨a, m, p, hxr⟩ := Reading.exists_of_value hx
  obtain ⟨b, n, q, hyr⟩ := Reading.exists_of_value hy
  unfold value? at hx hy
  rw [hxr] at hx
  rw [hyr] at hy
  obtain rfl := Option.some.inj hx
  obtain rfl := Option.some.inj hy
  -- both are brought to the smaller exponent, where the sum is exact
  let r := min p q
  let sum := Reading.scaled a m * Nat.pow 2 (p - r).toNat +
    Reading.scaled b n * Nat.pow 2 (q - r).toNat
  have hexact : (Reading.scaled a m : ℚ) * 2 ^ p + Reading.scaled b n * 2 ^ q =
      (sum : ℚ) * 2 ^ r := by
    rw [Reading.scaled_refine _ p r (min_le_left p q), Reading.scaled_refine _ q r (min_le_right p q),
      ← add_mul, ← Int.cast_add]
  have hpos : 0 < sum := by
    rw [hexact] at hsum
    exact_mod_cast pos_of_mul_pos_left hsum (by positivity)
  have habs : (sum.natAbs : ℚ) = sum := by
    rw [Nat.cast_natAbs, abs_of_pos hpos]
  refine ⟨sum.natAbs * Nat.pow 2 r.toNat, Nat.pow 2 (-r).toNat, ?_, Nat.two_pow_pos _, ?_, ?_⟩
  · exact Nat.mul_pos (Int.natAbs_pos.mpr hpos.ne') (Nat.two_pow_pos _)
  · rw [hexact, two_zpow_eq r, ← habs]
    push_cast
    ring
  · change add x y = _
    unfold add
    rw [hxr, hyr]
    change addFinite a m p b n q = _
    have hdef : addFinite a m p b n q =
        if sum = 0 then ofRatio (a && b) 0 1
        else ofReading (.finite (decide (sum < 0)) sum.natAbs r) := rfl
    rw [hdef, if_neg hpos.ne', decide_eq_false (not_lt.mpr hpos.le)]
    rfl

/-- Adding what is above zero never leads back. -/
theorem atMost_add (hx : zero.AtMost x) (hy : zero.less y = true) : x.AtMost (x + y) := by
  obtain hxr | ⟨u, hu, hnonneg⟩ := time_cases hx
  · -- infinity stays what it is
    apply atMost_of_infinite hx.2.1
    change (add x y).reading = _
    unfold add
    rw [hxr]
    obtain hyr | ⟨v, hv, -⟩ := positive_cases hy
    · rw [hyr]
      exact reading_infinite false
    · obtain ⟨b, n, q, hyr⟩ := Reading.exists_of_value hv
      rw [hyr]
      exact reading_infinite false
  · obtain hyr | ⟨v, hv, hpos⟩ := positive_cases hy
    · apply atMost_of_infinite hx.2.1
      obtain ⟨a, m, p, hxr⟩ := Reading.exists_of_value hu
      change (add x y).reading = _
      unfold add
      rw [hxr, hyr]
      exact reading_infinite false
    · obtain ⟨num, den, hnum, hden, hratio, hsum⟩ := add_finite hu hv (by linarith)
      rw [hsum]
      by_cases hfinite : single.roundRatio num den < single.infinity
      · -- the other term has room in the format, so that the sum is not rounded below it
        have hvalue := value_of_finite false hden hfinite
        refine atMost_of_values hu hvalue (Format.le_rounded hnum hden ?_ ?_)
        · rw [← abs_of_nonneg hnonneg]
          exact represents_value hu
        · rw [hratio]
          linarith
      · exact atMost_of_infinite hx.2.1 (reading_of_large false hfinite)

end Single

end ScenarioHost
