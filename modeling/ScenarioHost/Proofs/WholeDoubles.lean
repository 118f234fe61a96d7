import Mathlib
import ScenarioHost.Binary.Double

/-!
Natural numbers as doubles. A double has room for 53 significant bits; a number that needs more is
rounded to the nearest one that does not, and two numbers become the same double exactly if they
are rounded to the same number.
-/
namespace ScenarioHost

/-! Nearest integers. -/

/-- The nearest integer is at most a half away. -/
theorem nearest_even_half (num den : Nat) (h : 0 < den) :
    2 * ((num : Int) - (nearestEven num den * den : Nat)).natAbs ≤ den := by
  have hdivision : den * (num / den) + num % den = num := Nat.div_add_mod num den
  have hrest : num % den < den := Nat.mod_lt num h
  unfold nearestEven
  dsimp only
  generalize num / den = quotient at hdivision
  generalize num % den = rest at hdivision hrest
  have hbelow : quotient * den = den * quotient := Nat.mul_comm _ _
  have habove : (quotient + 1) * den = den * quotient + den := by ring
  split
  · rw [hbelow]
    omega
  · split
    · rw [habove]
      omega
    · -- a half goes to the even neighbour
      obtain heven | hodd := Nat.mod_two_eq_zero_or_one quotient
      · rw [heven, Nat.add_zero, hbelow]
        omega
      · rw [hodd, habove]
        omega

theorem nearest_even_exact (m den : Nat) (h : 0 < den) : nearestEven (m * den) den = m := by
  unfold nearestEven
  dsimp only
  rw [Nat.mul_mod_left, Nat.mul_div_cancel m h, if_pos (by omega)]

theorem nearest_even_one (n : Nat) : nearestEven n 1 = n := by
  have h := nearest_even_exact n 1 Nat.one_pos
  rwa [Nat.mul_one] at h

/-- No multiple is nearer than the nearest one. -/
theorem nearest_even_closest (num den j : Nat) (h : 0 < den) :
    ((num : Int) - (nearestEven num den * den : Nat)).natAbs ≤ ((num : Int) - (j * den : Nat)).natAbs := by
  have hhalf := nearest_even_half num den h
  generalize nearestEven num den = m at hhalf
  obtain hlt | rfl | hgt := Nat.lt_trichotomy j m
  · have hstep : (j + 1) * den ≤ m * den := Nat.mul_le_mul_right den hlt
    rw [Nat.add_one_mul] at hstep
    omega
  · exact le_refl _
  · have hstep : (m + 1) * den ≤ j * den := Nat.mul_le_mul_right den hgt
    rw [Nat.add_one_mul] at hstep
    omega

namespace Double

def spare (n : Nat) : Nat := n.log2 - 52

def rounded (n : Nat) : Nat := nearestEven n (2 ^ spare n) * 2 ^ spare n

def Short (n : Nat) : Prop := ∃ m k, m < 2 ^ 53 ∧ n = m * 2 ^ k

theorem spare_eq_zero {n : Nat} (h : n < 2 ^ 53) : spare n = 0 := by
  have hlog : n.log2 < 53 := by
    by_cases hn : n = 0
    · subst hn
      decide
    · exact (Nat.log2_lt hn).mpr h
  unfold spare
  omega

theorem rounded_small {n : Nat} (h : n < 2 ^ 53) : rounded n = n := by
  rw [rounded, spare_eq_zero h, Nat.pow_zero, nearest_even_one, Nat.mul_one]

/-- The bits of a number that a double has room for. -/
theorem long_bounds {n : Nat} (h : 2 ^ 53 ≤ n) :
    2 ^ 52 * 2 ^ spare n ≤ n ∧ n < 2 ^ 53 * 2 ^ spare n := by
  have hn : n ≠ 0 := by omega
  have hlog : 53 ≤ n.log2 := (Nat.le_log2 hn).mpr h
  have hlow : 2 ^ n.log2 ≤ n := Nat.log2_self_le hn
  have hhigh : n < 2 ^ (n.log2 + 1) := Nat.lt_log2_self
  have hsplit : n.log2 = 52 + spare n := by
    unfold spare
    omega
  rw [← Nat.pow_add, ← Nat.pow_add, ← hsplit]
  exact ⟨hlow, by rwa [show 53 + spare n = n.log2 + 1 by omega]⟩

/-- A number of few significant bits is a multiple of what a larger one has no room for. -/
theorem dvd_of_short {n r : Nat} (hr : Short r) (h : 2 ^ 52 * 2 ^ spare n ≤ r) : 2 ^ spare n ∣ r := by
  obtain ⟨m, k, hm, rfl⟩ := hr
  by_cases hk : spare n ≤ k
  · exact (pow_dvd_pow 2 hk).mul_left m
  · -- with more zeros missing at the end the number would be too small
    have hle : 2 ^ k * 2 ≤ 2 ^ spare n := by
      rw [← Nat.pow_succ]
      exact Nat.pow_le_pow_right (by decide) (by omega)
    have hpos : 0 < 2 ^ k := Nat.two_pow_pos k
    have hlt : m * 2 ^ k < 2 ^ 53 * 2 ^ k := Nat.mul_lt_mul_of_pos_right hm hpos
    omega

/-- Rounding keeps the number of bits, or makes the next power of two. -/
theorem significand_bounds {n : Nat} (h : 2 ^ 53 ≤ n) :
    2 ^ 52 ≤ nearestEven n (2 ^ spare n) ∧ nearestEven n (2 ^ spare n) ≤ 2 ^ 53 := by
  obtain ⟨hlow, hhigh⟩ := long_bounds h
  have hhalf := nearest_even_half n (2 ^ spare n) (Nat.two_pow_pos _)
  constructor
  · by_contra hsmall
    have hstep : (nearestEven n (2 ^ spare n) + 1) * 2 ^ spare n ≤ 2 ^ 52 * 2 ^ spare n :=
      Nat.mul_le_mul_right _ (by omega)
    rw [Nat.add_one_mul] at hstep
    have hpos := Nat.two_pow_pos (spare n)
    omega
  · by_contra hlarge
    have hstep : (2 ^ 53 + 1) * 2 ^ spare n ≤ nearestEven n (2 ^ spare n) * 2 ^ spare n :=
      Nat.mul_le_mul_right _ (by omega)
    omega

theorem short_rounded (n : Nat) : Short (rounded n) := by
  by_cases h : n < 2 ^ 53
  · rw [rounded_small h]
    exact ⟨n, 0, h, by rw [Nat.pow_zero, Nat.mul_one]⟩
  · obtain hlt | heq := Nat.lt_or_eq_of_le (significand_bounds (not_lt.mp h)).2
    · exact ⟨_, _, hlt, rfl⟩
    · refine ⟨2 ^ 52, spare n + 1, by decide, ?_⟩
      rw [rounded, heq]
      ring

/-- No number of at most 53 significant bits is nearer. -/
theorem rounded_closest {n r : Nat} (hr : Short r) :
    ((n : Int) - rounded n).natAbs ≤ ((n : Int) - r).natAbs := by
  by_cases h : n < 2 ^ 53
  · rw [rounded_small h]
    omega
  · obtain ⟨hlow, -⟩ := long_bounds (not_lt.mp h)
    have hpos : 0 < 2 ^ spare n := Nat.two_pow_pos _
    by_cases hlarge : 2 ^ 52 * 2 ^ spare n ≤ r
    · obtain ⟨j, rfl⟩ := dvd_of_short hr hlarge
      rw [Nat.mul_comm]
      exact nearest_even_closest n _ j hpos
    · have hbound := nearest_even_closest n (2 ^ spare n) (2 ^ 52) hpos
      unfold rounded
      omega

/-- Rounding leaves exactly the numbers alone that have at most 53 significant bits. -/
theorem rounded_eq_iff {n : Nat} : rounded n = n ↔ Short n := by
  constructor
  · intro h
    rw [← h]
    exact short_rounded n
  · intro h
    have hclosest := rounded_closest (n := n) h
    omega

/-! Codes. -/

structure Normal (m k : Nat) : Prop where
  full : 2 ^ 52 ≤ m
  short : m < 2 ^ 53
  bounded : k < 2046

def code (m k : Nat) : Nat := k * 2 ^ 52 + m

theorem Normal.code_lt {m k : Nat} (h : Normal m k) : code m k < Format.double.infinity := by
  have hm := h.short
  have hk := h.bounded
  change k * 2 ^ 52 + m < 2047 * 2 ^ 52
  omega

/-- A value has one significand of full width. -/
theorem Normal.unique {m k m' k' : Nat} (h : Normal m k) (h' : Normal m' k') {e e' : Nat}
    (heq : m * 2 ^ e = m' * 2 ^ e') : m = m' ∧ e = e' := by
  have hother {m m' e e' : Nat} (hm : m < 2 ^ 53) (hm' : 2 ^ 52 ≤ m')
      (heq : m * 2 ^ e = m' * 2 ^ e') : ¬ e < e' := by
    intro hlt
    have hle : 2 ^ e * 2 ≤ 2 ^ e' := by
      rw [← Nat.pow_succ]
      exact Nat.pow_le_pow_right (by decide) hlt
    have hpos : 0 < 2 ^ e := Nat.two_pow_pos e
    have hsmall : m * 2 ^ e < 2 ^ 53 * 2 ^ e := Nat.mul_lt_mul_of_pos_right hm hpos
    have hlarge : 2 ^ 52 * 2 ^ e' ≤ m' * 2 ^ e' := Nat.mul_le_mul_right _ hm'
    omega
  have he : e = e' := by
    have hlow := hother h.short h'.full heq
    have hhigh := hother h'.short h.full heq.symm
    omega
  subst he
  exact ⟨Nat.eq_of_mul_eq_mul_right (Nat.two_pow_pos e) heq, rfl⟩

def Stands (m k n : Nat) : Prop := m * 2 ^ (k - 1074) = n * 2 ^ (1074 - k)

theorem Stands.unique {m k m' k' n : Nat} (h : Normal m k) (h' : Normal m' k')
    (hn : Stands m k n) (hn' : Stands m' k' n) : m = m' ∧ k = k' := by
  have heq : m * 2 ^ (k - 1074 + (1074 - k')) = m' * 2 ^ (k' - 1074 + (1074 - k)) := by
    calc m * 2 ^ (k - 1074 + (1074 - k')) = m * 2 ^ (k - 1074) * 2 ^ (1074 - k') := by
          rw [Nat.pow_add, Nat.mul_assoc]
      _ = n * 2 ^ (1074 - k) * 2 ^ (1074 - k') := by rw [hn]
      _ = n * 2 ^ (1074 - k') * 2 ^ (1074 - k) := Nat.mul_right_comm _ _ _
      _ = m' * 2 ^ (k' - 1074) * 2 ^ (1074 - k) := by rw [hn']
      _ = m' * 2 ^ (k' - 1074 + (1074 - k)) := by rw [Nat.pow_add, Nat.mul_assoc]
  obtain ⟨hm, he⟩ := h.unique h' heq
  exact ⟨hm, by omega⟩

theorem read_double (c : Nat) :
    Format.double.read c =
      if c / 2 ^ 52 % 2 ^ 11 = 2047 then
        if c % 2 ^ 52 = 0 then .infinite (c / 2 ^ 63 % 2 == 1) else .nan
      else if c / 2 ^ 52 % 2 ^ 11 = 0 then .finite (c / 2 ^ 63 % 2 == 1) (c % 2 ^ 52) (-1074)
      else .finite (c / 2 ^ 63 % 2 == 1) (2 ^ 52 + c % 2 ^ 52)
        (-1074 + (c / 2 ^ 52 % 2 ^ 11 - 1 : Nat)) := rfl

theorem read_code {m k : Nat} (h : Normal m k) :
    Format.double.read (code m k) = .finite false m (k - 1074) := by
  have hm := h.full
  have hm' := h.short
  have hk := h.bounded
  have hexponent : code m k / 2 ^ 52 % 2 ^ 11 = k + 1 := by
    unfold code
    omega
  have hfraction : code m k % 2 ^ 52 = m - 2 ^ 52 := by
    unfold code
    omega
  have hsign : code m k / 2 ^ 63 % 2 = 0 := by
    unfold code
    omega
  rw [read_double, hexponent, hfraction, hsign, if_neg (by omega), if_neg (by omega)]
  have hwhole : 2 ^ 52 + (m - 2 ^ 52) = m := by omega
  have hlast : (-1074 + ((k + 1 - 1 : Nat) : Int)) = (k : Int) - 1074 := by omega
  rw [hwhole, hlast]
  rfl

/-- The whole part of a value that is a whole number. -/
theorem truncate_code {m k n : Nat} (h : Stands m k n) :
    (Reading.finite false m (k - 1074)).truncate? = some (n : Int) := by
  have hup : ((k : Int) - 1074).toNat = k - 1074 := by omega
  have hdown : (-((k : Int) - 1074)).toNat = 1074 - k := by omega
  have hvalue : m * 2 ^ ((k : Int) - 1074).toNat / 2 ^ (-((k : Int) - 1074)).toNat = n := by
    rw [hup, hdown, h, Nat.mul_div_cancel n (Nat.two_pow_pos _)]
  exact congrArg (fun v : Nat => some (v : Int)) hvalue

theorem floor_log_nat {n : Nat} (hn : n ≠ 0) : floorLog2 n 1 = n.log2 := by
  have hone : Nat.log2 1 = 0 := by decide
  have hexponent : ((n.log2 : Int) - ((Nat.log2 1 : Nat) : Int)) = n.log2 := by rw [hone]; omega
  have hle : 1 * Nat.pow 2 ((n.log2 : Int)).toNat ≤ n * Nat.pow 2 (-(n.log2 : Int)).toNat := by
    have hzero : (-(n.log2 : Int)).toNat = 0 := by omega
    rw [Int.toNat_natCast, hzero, Nat.pow_eq, Nat.pow_eq, Nat.pow_zero, Nat.one_mul, Nat.mul_one]
    exact Nat.log2_self_le hn
  unfold floorLog2
  dsimp only
  rw [hexponent, if_pos hle]

theorem last_bit_nat (n : Nat) : Format.double.lastBit (n.log2 : Int) = (n.log2 : Int) - 52 := by
  change max ((n.log2 : Int) - 52) (-1074) = _
  omega

theorem round_double {n : Nat} (hn : n ≠ 0) :
    Format.double.roundRatio n 1 =
      min Format.double.infinity (code
        (nearestEven (n * 2 ^ (-((n.log2 : Int) - 52)).toNat) (2 ^ ((n.log2 : Int) - 52).toNat))
        ((n.log2 : Int) - 52 + 1074).toNat) := by
  unfold Format.roundRatio
  rw [if_neg hn, floor_log_nat hn]
  dsimp only
  rw [last_bit_nat]
  have hleast : (n.log2 : Int) - 52 - Format.double.least = (n.log2 : Int) - 52 + 1074 := by
    change (n.log2 : Int) - 52 - (-1074) = _
    omega
  rw [hleast, Nat.one_mul]
  rfl

/-- A number that has room for all its bits is its own significand, moved to the left. -/
theorem round_short_nat {n : Nat} (hn : n ≠ 0) (hsmall : n.log2 ≤ 52) :
    ∃ m k, Normal m k ∧ Stands m k (rounded n) ∧ Format.double.roundRatio n 1 = code m k := by
  have hlow : 2 ^ n.log2 ≤ n := Nat.log2_self_le hn
  have hhigh : n < 2 ^ (n.log2 + 1) := Nat.lt_log2_self
  have hup : (-((n.log2 : Int) - 52)).toNat = 52 - n.log2 := by omega
  have hdown : ((n.log2 : Int) - 52).toNat = 0 := by omega
  have hlast : ((n.log2 : Int) - 52 + 1074).toNat = 1022 + n.log2 := by omega
  have hrounded : rounded n = n := by
    refine rounded_small (hhigh.trans_le ?_)
    exact Nat.pow_le_pow_right (by decide) (by omega)
  have hnormal : Normal (n * 2 ^ (52 - n.log2)) (1022 + n.log2) := by
    refine ⟨?_, ?_, by omega⟩
    · calc 2 ^ 52 = 2 ^ n.log2 * 2 ^ (52 - n.log2) := by rw [← Nat.pow_add]; congr 1; omega
        _ ≤ n * 2 ^ (52 - n.log2) := Nat.mul_le_mul_right _ hlow
    · calc n * 2 ^ (52 - n.log2) < 2 ^ (n.log2 + 1) * 2 ^ (52 - n.log2) :=
            Nat.mul_lt_mul_of_pos_right hhigh (Nat.two_pow_pos _)
        _ = 2 ^ 53 := by rw [← Nat.pow_add]; congr 1; omega
  refine ⟨_, _, hnormal, ?_, ?_⟩
  · have hwhole : 1022 + n.log2 - 1074 = 0 := by omega
    have hplaces : 1074 - (1022 + n.log2) = 52 - n.log2 := by omega
    rw [hrounded, Stands, hwhole, hplaces, Nat.pow_zero, Nat.mul_one]
  · rw [round_double hn, hup, hdown, hlast, Nat.pow_zero, nearest_even_one,
      Nat.min_eq_right hnormal.code_lt.le]

/-- One that has not loses its last bits. -/
theorem round_long_nat {n : Nat} (h : n < 2 ^ 64) (hlarge : 2 ^ 53 ≤ n) :
    ∃ m k, Normal m k ∧ Stands m k (rounded n) ∧ Format.double.roundRatio n 1 = code m k := by
  have hn : n ≠ 0 := by omega
  have hlog : n.log2 < 64 := (Nat.log2_lt hn).mpr h
  have hlog' : 53 ≤ n.log2 := (Nat.le_log2 hn).mpr hlarge
  have hup : (-((n.log2 : Int) - 52)).toNat = 0 := by omega
  have hdown : ((n.log2 : Int) - 52).toNat = spare n := by
    unfold spare
    omega
  have hlast : ((n.log2 : Int) - 52 + 1074).toNat = 1074 + spare n := by
    unfold spare
    omega
  have hspare : spare n ≤ 11 := by
    unfold spare
    omega
  have hwidth := significand_bounds hlarge
  rw [round_double hn, hup, hdown, hlast, Nat.pow_zero, Nat.mul_one]
  obtain hlt | heq := Nat.lt_or_eq_of_le hwidth.2
  · have hnormal : Normal (nearestEven n (2 ^ spare n)) (1074 + spare n) :=
      ⟨hwidth.1, hlt, by omega⟩
    refine ⟨_, _, hnormal, ?_, Nat.min_eq_right hnormal.code_lt.le⟩
    have hwhole : 1074 + spare n - 1074 = spare n := by omega
    have hplaces : 1074 - (1074 + spare n) = 0 := by omega
    rw [Stands, hwhole, hplaces, Nat.pow_zero, Nat.mul_one, rounded]
  · -- rounding up to the next power of two makes the exponent one larger
    have hnormal : Normal (2 ^ 52) (1074 + spare n + 1) := ⟨le_refl _, by decide, by omega⟩
    have hcode : code (2 ^ 53) (1074 + spare n) = code (2 ^ 52) (1074 + spare n + 1) := by
      unfold code
      omega
    refine ⟨_, _, hnormal, ?_, ?_⟩
    · have hwhole : 1074 + spare n + 1 - 1074 = spare n + 1 := by omega
      have hplaces : 1074 - (1074 + spare n + 1) = 0 := by omega
      rw [Stands, hwhole, hplaces, Nat.pow_zero, Nat.mul_one, rounded, heq]
      ring
    · rw [heq, hcode, Nat.min_eq_right hnormal.code_lt.le]

theorem round_nat {n : Nat} (hn : n ≠ 0) (h : n < 2 ^ 64) :
    ∃ m k, Normal m k ∧ Stands m k (rounded n) ∧ Format.double.roundRatio n 1 = code m k := by
  obtain hsmall | hlarge := Nat.lt_or_ge n (2 ^ 53)
  · exact round_short_nat hn (Nat.lt_succ_iff.mp ((Nat.log2_lt hn).mpr hsmall))
  · exact round_long_nat h hlarge

/-! Doubles. -/

/-- The bits of a finite pattern are those of the double that it is. -/
theorem toBits_signed {c : Nat} (negative : Bool) (h : c < Format.double.infinity) :
    (Float.ofBits (UInt64.ofNat (Format.double.signed negative c))).toBits =
      UInt64.ofNat (Format.double.signed negative c) := by
  have hc : c < 2047 * 2 ^ 52 := h
  have hsigned : Format.double.signed negative c = if negative then 2 ^ 63 + c else c := rfl
  generalize Format.double.signed negative c = pattern at hsigned
  have hbits : (UInt64.ofNat pattern).toBitVec.toNat = pattern := by
    rw [UInt64.toNat_toBitVec, UInt64.toNat_ofNat', Nat.mod_eq_of_lt]
    split at hsigned <;> omega
  have hexponent : @Float.Model.UnpackedFloat.unpackExponent .binary64
      (UInt64.ofNat pattern).toBitVec ≠ -1#11 := by
    intro heq
    have hnat := congrArg BitVec.toNat heq
    rw [Float.Model.UnpackedFloat.unpackExponent_def, BitVec.extractLsb'_toNat, hbits] at hnat
    change pattern >>> 52 % 2 ^ 11 = 2047 at hnat
    rw [Nat.shiftRight_eq_div_pow] at hnat
    split at hsigned <;> omega
  have hnan : @Float.Model.UnpackedFloat.isNaNBits .binary64 (UInt64.ofNat pattern).toBitVec =
      false := decide_eq_false fun h => hexponent h.1
  have hpack := @Float.Model.UnpackedFloat.pack_unpack .binary64 (UInt64.ofNat pattern).toBitVec
    (by decide)
  rw [hnan] at hpack
  exact UInt64.toBitVec_inj.mp hpack

theorem toBits_ofBits {c : Nat} (h : c < Format.double.infinity) :
    (Float.ofBits (UInt64.ofNat c)).toBits = UInt64.ofNat c := toBits_signed false h

theorem round_nat_lt {n : Nat} (h : n < 2 ^ 64) : Format.double.roundRatio n 1 < Format.double.infinity := by
  by_cases hn : n = 0
  · subst hn
    decide
  · obtain ⟨m, k, hnormal, -, hcode⟩ := round_nat hn h
    rw [hcode]
    exact hnormal.code_lt

theorem toBits_ofNat {n : Nat} (h : n < 2 ^ 64) :
    (ofNat n).toBits = UInt64.ofNat (Format.double.roundRatio n 1) := by
  rw [ofNat, ofRatio, Format.signed, if_neg Bool.false_ne_true]
  exact toBits_ofBits (round_nat_lt h)

/-- No natural number has the bits of an infinity, of what is no number, or of a negative one. -/
theorem bits_ofNat {n : Nat} (h : n < 2 ^ 64) :
    (ofNat n).toBits.toNat = Format.double.roundRatio n 1 ∧
      (ofNat n).toBits.toNat < 2047 * 2 ^ 52 := by
  have hlt : Format.double.roundRatio n 1 < 2047 * 2 ^ 52 := round_nat_lt h
  have hbits : (ofNat n).toBits.toNat = Format.double.roundRatio n 1 := by
    rw [toBits_ofNat h, UInt64.toNat_ofNat', Nat.mod_eq_of_lt]
    omega
  exact ⟨hbits, hbits ▸ hlt⟩

theorem reading_ofNat {n : Nat} (h : n < 2 ^ 64) :
    reading (ofNat n) = Format.double.read (Format.double.roundRatio n 1) := by
  rw [reading, (bits_ofNat h).1]

/-- A natural number as a double is the nearest number for which there is room. -/
theorem truncate_ofNat {n : Nat} (h : n < 2 ^ 64) :
    (reading (ofNat n)).truncate? = some (rounded n : Int) := by
  rw [reading_ofNat h]
  by_cases hn : n = 0
  · subst hn
    have hread : Format.double.read (Format.double.roundRatio 0 1) =
        .finite false 0 (((0 : Nat) : Int) - 1074) := by decide
    have hzero : rounded 0 = 0 := rounded_small (by decide)
    rw [hread, hzero]
    refine truncate_code ?_
    rw [Stands, Nat.zero_mul, Nat.zero_mul]
  · obtain ⟨m, k, hnormal, hvalue, hcode⟩ := round_nat hn h
    rw [hcode, read_code hnormal]
    exact truncate_code hvalue

theorem ofNat_ne_nan {n : Nat} (h : n < 2 ^ 64) : ofNat n ≠ Float.nan := by
  intro heq
  have hlt := (bits_ofNat h).2
  have hnan : Float.nan.toBits.toNat = 0x7FF8000000000000 := by decide
  rw [heq, hnan] at hlt
  omega

theorem ofNat_ne_negative_zero {n : Nat} (h : n < 2 ^ 64) : ofNat n ≠ -0 := by
  intro heq
  have hlt := (bits_ofNat h).2
  have hzero : (-0 : Float).toBits.toNat = 0x8000000000000000 := by decide
  rw [heq, hzero] at hlt
  omega

/-- What a number is rounded to decides which double it is. -/
theorem round_nat_congr {a b : Nat} (ha : a < 2 ^ 64) (hb : b < 2 ^ 64) (h : rounded a = rounded b) :
    Format.double.roundRatio a 1 = Format.double.roundRatio b 1 := by
  have hzero {n : Nat} (hn : n < 2 ^ 64) (h : rounded n = 0) : n = 0 := by
    by_contra hne
    obtain ⟨m, k, hnormal, hvalue, -⟩ := round_nat hne hn
    rw [h, Stands, Nat.zero_mul] at hvalue
    have hm := hnormal.full
    have hpos : 0 < m * 2 ^ (k - 1074) := Nat.mul_pos (by omega) (Nat.two_pow_pos _)
    exact absurd hvalue hpos.ne'
  have hzeros : rounded 0 = 0 := rounded_small (by decide)
  by_cases ha0 : a = 0
  · subst ha0
    rw [hzero hb (h.symm.trans hzeros)]
  · by_cases hb0 : b = 0
    · subst hb0
      exact absurd (hzero ha (h.trans hzeros)) ha0
    · obtain ⟨m, k, hnormal, hvalue, hcode⟩ := round_nat ha0 ha
      obtain ⟨m', k', hnormal', hvalue', hcode'⟩ := round_nat hb0 hb
      obtain ⟨rfl, rfl⟩ := hvalue.unique hnormal hnormal' (h ▸ hvalue')
      rw [hcode, hcode']

/-- Two natural numbers are equal as doubles exactly if they are rounded to the same number. -/
theorem ofNat_beq_iff {a b : Nat} (ha : a < 2 ^ 64) (hb : b < 2 ^ 64) :
    (ofNat a == ofNat b) = true ↔ rounded a = rounded b := by
  rw [Float.beq_iff_ne_nan_and_eq]
  constructor
  · rintro ⟨-, -, heq | ⟨-, hnegative⟩ | ⟨hnegative, -⟩⟩
    · have hread := truncate_ofNat ha
      rw [heq, truncate_ofNat hb] at hread
      exact (Int.natCast_inj.mp (Option.some.inj hread)).symm
    · exact absurd hnegative (ofNat_ne_negative_zero hb)
    · exact absurd hnegative (ofNat_ne_negative_zero ha)
  · intro h
    refine ⟨ofNat_ne_nan ha, ofNat_ne_nan hb, Or.inl ?_⟩
    rw [ofNat, ofNat, ofRatio, ofRatio, round_nat_congr ha hb h]

theorem toNatBelow_ofNat {n : Nat} (h : n < 2 ^ 64) (bound : Nat) :
    toNatBelow? bound (ofNat n) = if rounded n < bound then some (rounded n) else none := by
  unfold toNatBelow?
  rw [truncate_ofNat h]
  dsimp only
  rw [Int.toNat_natCast]
  refine if_congr ?_ rfl rfl
  omega

end Double

end ScenarioHost
