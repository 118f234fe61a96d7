import ScenarioHost.Config
import ScenarioHost.Proofs.PlainNumbers
import ScenarioHost.Proofs.RoundedTwice

/-!
Timeouts as texts. A timeout is written with the digits that identify it among the singles, and read
with double precision first. That gives it back in all cases but one, of either sign, where it comes
back as its neighbour away from zero.
-/
namespace ScenarioHost

open Format (double single)

/-! From a double to a single. -/

theorem Format.exists_read_signed {f : Format} {c : ℕ} (negative : Bool) (hc : c < f.infinity) :
    ∃ m q, f.read (f.signed negative c) = .finite negative m q := by
  rw [Format.read_signed negative hc]
  split
  · exact ⟨_, _, rfl⟩
  · exact ⟨_, _, rfl⟩

theorem Double.reading_ofRatio {num den : ℕ} (negative : Bool)
    (hfinite : double.roundRatio num den < double.infinity) :
    Double.reading (Double.ofRatio negative num den) =
      double.read (double.signed negative (double.roundRatio num den)) := by
  have hcode : double.roundRatio num den < 2047 * 2 ^ 52 := hfinite
  have hsigned : double.signed negative (double.roundRatio num den) < 2 ^ 64 := by
    unfold Format.signed
    split
    · change 2 ^ 63 + double.roundRatio num den < 2 ^ 64
      omega
    · omega
  unfold Double.reading Double.ofRatio
  rw [Double.toBits_signed negative hfinite, UInt64.toNat_ofNat', Nat.mod_eq_of_lt hsigned]

namespace Single

/-- A ratio that is rounded to a double first is a double when it is rounded to a single. -/
theorem ofDouble_ofRatio {num den : ℕ} (negative : Bool) (hden : 0 < den)
    (hfinite : double.roundRatio num den < double.infinity) :
    ∃ num' den' : ℕ, 0 < den' ∧ (num' / den' : ℚ) = double.rounded num den ∧
      ofDouble (Double.ofRatio negative num den) = ofRatio negative num' den' := by
  obtain ⟨m, q, hread⟩ := Format.exists_read_signed negative hfinite
  have hvalue := Format.read_roundRatio negative hden hfinite
  rw [hread] at hvalue
  have habs := Reading.abs_value hvalue
  have hnonneg : 0 ≤ double.rounded num den := by
    unfold Format.rounded
    positivity
  have hmagnitude : double.rounded num den = m * 2 ^ q := by
    rw [← habs]
    split
    · rw [abs_neg, abs_of_nonneg hnonneg]
    · rw [abs_of_nonneg hnonneg]
  refine ⟨m * Nat.pow 2 q.toNat, Nat.pow 2 (-q).toNat, Nat.two_pow_pos _, ?_, ?_⟩
  · rw [hmagnitude, two_zpow_eq q]
    push_cast
    ring
  · unfold ofDouble
    rw [Double.reading_ofRatio negative hfinite, hread]
    rfl

/-- A finite single is what its sign and the code of its magnitude make. -/
theorem bits_of_reading {x : Single} {negative : Bool} {m : ℕ} {q : ℤ}
    (h : x.reading = .finite negative m q) :
    single.Canonical m q ∧ single.code m q < single.infinity ∧
      x.bits = UInt32.ofNat (single.signed negative (single.code m q)) := by
  have hbits : x.bits.toNat < 2 * single.signBit := x.bits.toNat_lt
  obtain ⟨hpattern, hfinite⟩ := Format.pattern_of_read hbits h
  refine ⟨Format.canonical_of_read h, hfinite, ?_⟩
  rw [← hpattern, UInt32.ofNat_toNat]

def Lost (x : Single) : Prop := x.bits = 0x15ae43fd ∨ x.bits = 0x95ae43fd

instance (x : Single) : Decidable x.Lost :=
  inferInstanceAs (Decidable (x.bits = 0x15ae43fd ∨ x.bits = 0x95ae43fd))

theorem lost_of_missed {x : Single} {negative : Bool} {m : ℕ} {q : ℤ}
    (h : x.reading = .finite negative m q) (hmissed : Midpoints.Missed m q) : x.Lost := by
  obtain ⟨-, -, hbits⟩ := bits_of_reading h
  obtain ⟨rfl, rfl⟩ := hmissed
  rw [Lost, hbits]
  cases negative with
  | false => exact Or.inl (by decide)
  | true => exact Or.inr (by decide)

end Single

namespace Config

variable {x : Single} {negative : Bool} {m : ℕ} {q : ℤ}

theorem timeout_of_parse {text : String} {d : Decimal}
    (h : Numeral.parse? text = some (.decimal negative d)) :
    timeout? text = some (.ofDouble (Double.ofRatio negative d.ratio.1 d.ratio.2)) := by
  rw [timeout?, h]
  rfl

theorem parse_toPlain (h : x.reading = .finite negative m q) :
    ∃ read, Numeral.parse? x.toPlain = some (.decimal negative read) ∧
      read.value = (shortestDecimal single .up m q).value := by
  have htext : x.toPlain = Layout.minus negative ++
      Layout.positional (shortestDecimal single .up m q) := by
    unfold Single.toPlain
    rw [h]
    rfl
  rw [htext]
  exact Numeral.parse_positional negative _

/-- A zero keeps its sign. -/
theorem timeout_zero (h : x.reading = .finite negative 0 q) : timeout? x.toPlain = some x := by
  obtain ⟨hcanonical, -, hbits⟩ := Single.bits_of_reading h
  obtain ⟨read, hparse, hvalue⟩ := parse_toPlain h
  have hzero : read.ratio = (0, 1) := by
    apply Decimal.ratio_of_zero
    rw [hvalue]
    unfold shortestDecimal
    rw [if_pos rfl]
    simp [Decimal.value, Decimal.zero]
  have hq : q = single.least := hcanonical.full.resolve_right (by decide)
  have hreading : Double.reading (Double.ofRatio negative 0 1) =
      double.read (double.signed negative 0) := Double.reading_ofRatio negative (by decide)
  rw [timeout_of_parse hparse, hzero, Single.ofDouble, hreading]
  refine congrArg some ?_
  obtain ⟨bits⟩ := x
  change bits = _ at hbits
  rw [hbits, hq]
  cases negative <;> decide

theorem timeout_of_not_missed (h : x.reading = .finite negative m q) (hm : 0 < m)
    (hother : ¬ Midpoints.Missed m q) : timeout? x.toPlain = some x := by
  obtain ⟨hcanonical, hfinite, hbits⟩ := Single.bits_of_reading h
  obtain ⟨read, hparse, hread⟩ := parse_toPlain h
  obtain ⟨d, hshortest, hrounds, hnearest⟩ :=
    shortestDecimal_rounds (f := single) .up (by decide) (by decide) hm hcanonical
  have hvalue : read.value = d.value := hread.trans hshortest
  obtain ⟨hlow, hhigh⟩ := order_bounds (single_order hcanonical hfinite)
  -- no single is so small or so large that the decimal would be cut
  obtain ⟨-, hden, hratio⟩ : 0 < read.ratio.1 ∧ 0 < read.ratio.2 ∧
      (read.ratio.1 : ℚ) / read.ratio.2 = read.value := by
    apply Decimal.ratio_of_value
    · calc (10 : ℚ) ^ (-100 : ℤ) ≤ 2 ^ (-149 : ℤ) / 2 := by norm_num
        _ ≤ 2 ^ q / 2 := by
            apply div_le_div_of_nonneg_right _ (by norm_num)
            exact zpow_le_zpow_right₀ (by norm_num) hlow
        _ ≤ read.value := hvalue ▸ half_lt_of_roundsTo hm hrounds
    · calc read.value ≤ 2 ^ 24 * 2 ^ q := hvalue ▸ (lt_of_roundsTo hcanonical hrounds).le
        _ ≤ 2 ^ 24 * 2 ^ (104 : ℤ) := by
            apply mul_le_mul_of_nonneg_left _ (by norm_num)
            exact zpow_le_zpow_right₀ (by norm_num) hhigh
        _ ≤ 10 ^ (100 : ℤ) := by norm_num
  rw [hvalue] at hratio
  have hwithin : single.RoundsTo m q (read.ratio.1 / read.ratio.2 : ℚ) := hratio ▸ hrounds
  -- the double that is nearest to the decimal still lies where the single is the nearest
  have hdouble := double_roundsTo hm hcanonical hfinite hden hratio hrounds hnearest hother
  obtain ⟨num, den, hden', hratio', hsingle⟩ :=
    Single.ofDouble_ofRatio negative hden (double_finite hm hcanonical hden hwithin hfinite)
  rw [← hratio'] at hdouble
  have hcode : single.roundRatio num den = single.code m q :=
    Format.roundRatio_of_roundsTo (num_pos_of_roundsTo hm hdouble) hden' hcanonical hm hdouble
      hfinite
  rw [timeout_of_parse hparse, hsingle, Single.ofRatio, hcode, ← hbits]

/-- The exception comes back as its neighbour. -/
theorem timeout_of_lost (h : x.Lost) : timeout? x.toPlain = some ⟨x.bits + 1⟩ := by
  let decimal : Decimal := ⟨7038531, -32⟩
  have hread (negative : Bool) :
      Single.ofDouble (Double.ofRatio negative decimal.ratio.1 decimal.ratio.2) =
        Single.ofReading (double.read (double.signed negative
          (double.roundRatio decimal.ratio.1 decimal.ratio.2))) := by
    rw [Single.ofDouble, Double.reading_ofRatio negative (by decide)]
  obtain ⟨bits⟩ := x
  obtain rfl | rfl : bits = 0x15ae43fd ∨ bits = 0x95ae43fd := h
  · have hparse : Numeral.parse? (Single.toPlain ⟨0x15ae43fd⟩) = some (.decimal false decimal) := by
      decide
    rw [timeout_of_parse hparse, hread]
    decide
  · have hparse : Numeral.parse? (Single.toPlain ⟨0x95ae43fd⟩) = some (.decimal true decimal) := by
      decide
    rw [timeout_of_parse hparse, hread]
    decide

/-- Timeouts that are numbers are read back from their texts, but for the exception. -/
theorem timeout_toPlain {v : ℚ} (h : x.value? = some v) :
    timeout? x.toPlain = some (if x.Lost then ⟨x.bits + 1⟩ else x) := by
  obtain ⟨negative, m, q, hreading⟩ := Reading.exists_of_value h
  by_cases hlost : x.Lost
  · rw [if_pos hlost]
    exact timeout_of_lost hlost
  · rw [if_neg hlost]
    obtain rfl | hm := Nat.eq_zero_or_pos m
    · exact timeout_zero hreading
    · exact timeout_of_not_missed hreading hm fun hmissed =>
        hlost (Single.lost_of_missed hreading hmissed)

end Config

end ScenarioHost
