import Mathlib
import ScenarioHost.Proofs.Rounding
import ScenarioHost.Proofs.SectorNames

/-!
The grid of sectors against exact numbers. The edge of a sector is no power of two, so the quotient
that gives the index of a coordinate is rounded. Next to an edge of the grid coordinates are farther
apart than quotients, so no rounding reaches the edge. Only where quotients end, just below zero, is
there nothing that keeps a quotient from becoming zero.
-/
namespace ScenarioHost.Sector

open Format (single)

/-- A coordinate below zero whose quotient is half of the smallest magnitude or less. -/
def Vanishing (u : ℚ) : Prop := -10000 * 2 ^ (-149 : ℤ) ≤ u ∧ u < 0

/-! Quotients next to the edges of the grid. -/

/-- The edges of the grid are far out on a grid of small steps, which are wide against the steps of
the quotient. -/
theorem edge_eq {n : ℕ} (h0 : 0 < n) (hn : n < 2 ^ 15) :
    ∃ (m : ℕ) (s : ℤ), 2 ^ 14 ≤ m ∧ m < 2 ^ 15 ∧ -9 ≤ s ∧
      (n : ℚ) = m * 2 ^ (s - 5) ∧ (20000 * n : ℚ) = (625 * m : ℕ) * 2 ^ s := by
  have hlog : n.log2 < 15 := (Nat.log2_lt h0.ne').mpr hn
  have hlow : 2 ^ n.log2 ≤ n := Nat.log2_self_le h0.ne'
  have hhigh : n < 2 ^ (n.log2 + 1) := Nat.lt_log2_self
  obtain ⟨k, hk⟩ := Nat.exists_eq_add_of_le (Nat.le_of_lt_succ hlog)
  have hsplit : 2 ^ 14 = 2 ^ n.log2 * 2 ^ k := by rw [hk, pow_add]
  have hn' : (n : ℚ) = (n * 2 ^ k : ℕ) * 2 ^ ((n.log2 : ℤ) - 14) := by
    have hexponent : (n.log2 : ℤ) - 14 = -(k : ℤ) := by omega
    rw [hexponent, zpow_neg, zpow_natCast]
    push_cast
    rw [mul_inv_cancel_right₀ (by positivity)]
  refine ⟨n * 2 ^ k, (n.log2 : ℤ) - 9, ?_, ?_, by omega, ?_, ?_⟩
  · rw [hsplit]
    exact Nat.mul_le_mul_right _ hlow
  · have htop : 2 ^ 15 = 2 ^ (n.log2 + 1) * 2 ^ k := by
      rw [pow_succ, hsplit, pow_succ, mul_right_comm]
    rw [htop]
    exact Nat.mul_lt_mul_of_pos_right hhigh (Nat.two_pow_pos k)
  · have hexponent : (n.log2 : ℤ) - 9 - 5 = n.log2 - 14 := by ring
    rw [hexponent]
    exact hn'
  · have hexponent : (n.log2 : ℤ) - 9 = ((n.log2 : ℤ) - 14) + 5 := by ring
    rw [hexponent, zpow_add₀ (by norm_num), hn']
    push_cast
    ring

/-- Around an edge of the grid coordinates keep a step away, and a place of the quotient is a small
part of it. -/
theorem gap_at_edge {n : ℕ} (h0 : 0 < n) (hn : n < 2 ^ 15) :
    ∃ w : ℚ, 0 < w ∧
      (∀ y, single.Represents y → y < 20000 * n → y ≤ 20000 * n - w) ∧
      (∀ y, single.Represents y → 20000 * n < y → 20000 * n + w ≤ y) ∧
      single.Represents (n - w / 16384) ∧ single.Represents (n + w / 16384) := by
  obtain ⟨m, s, hlow, hhigh, hs, hplaces, hsteps⟩ := edge_eq h0 hn
  -- the significand of the edge is full, so the next numbers are one step away on both sides
  have hfull : 2 ^ single.significandBits < 625 * m := by
    change 2 ^ 23 < 625 * m
    omega
  have hplace : (2 : ℚ) ^ s / 16384 = 2 ^ (s - 14) := by
    rw [zpow_sub₀ (by norm_num)]
    norm_num
  have hscale : (2 : ℚ) ^ (s - 5) = 512 * 2 ^ (s - 14) := by
    have hexponent : s - 5 = 9 + (s - 14) := by ring
    rw [hexponent, zpow_add₀ (by norm_num)]
    norm_num
  have hleast : single.least ≤ s - 14 := by
    change -149 ≤ s - 14
    omega
  refine ⟨2 ^ s, by positivity, ?_, ?_, ⟨512 * m - 1, s - 14, ?_, hleast, ?_⟩,
    ⟨512 * m + 1, s - 14, ?_, hleast, ?_⟩⟩
  · intro y hy hlt
    rw [hsteps] at hlt ⊢
    refine (hy.le_pred hfull hlt).trans_eq ?_
    ring
  · intro y hy hlt
    rw [hsteps] at hlt ⊢
    refine Eq.trans_le ?_ (hy.succ_le hfull.le hlt)
    ring
  · change 512 * m - 1 ≤ 2 ^ 24
    omega
  · rw [hplaces, hscale, hplace, Nat.cast_sub (by omega)]
    push_cast
    ring
  · change 512 * m + 1 ≤ 2 ^ 24
    omega
  · rw [hplaces, hscale, hplace]
    push_cast
    ring

section Quotient

variable {num den n : ℕ}

/-- A coordinate before an edge of the grid has a quotient before it. -/
theorem rounded_lt (hnum : 0 < num) (hden : 0 < den) (hn : n < 2 ^ 15)
    (hcoordinate : single.Represents (20000 * (num / den))) (h : (num / den : ℚ) < n) :
    single.rounded num den < n := by
  have hpos : (0 : ℚ) < num / den := by positivity
  have h0 : 0 < n := by exact_mod_cast hpos.trans h
  obtain ⟨w, hw, hgap, -, hplace, -⟩ := gap_at_edge h0 hn
  have hbefore := hgap _ hcoordinate (by linarith)
  -- the place before the edge is nearer than the edge
  have hclosest := Format.rounded_closest hnum hden hplace
  by_contra hge
  rw [abs_of_nonneg (a := single.rounded num den - num / den) (by linarith)] at hclosest
  obtain ⟨habs, -⟩ | ⟨habs, -⟩ := abs_cases (n - w / 16384 - num / den : ℚ)
  · linarith
  · linarith

/-- A coordinate behind an edge of the grid has a quotient behind it. -/
theorem lt_rounded (hnum : 0 < num) (hden : 0 < den) (h0 : 0 < n) (hn : n < 2 ^ 15)
    (hcoordinate : single.Represents (20000 * (num / den))) (h : (n : ℚ) < num / den) :
    n < single.rounded num den := by
  obtain ⟨w, hw, -, hgap, -, hplace⟩ := gap_at_edge h0 hn
  have hbehind := hgap _ hcoordinate (by linarith)
  have hclosest := Format.rounded_closest hnum hden hplace
  by_contra hge
  rw [abs_of_nonpos (a := single.rounded num den - num / den) (by linarith)] at hclosest
  obtain ⟨habs, -⟩ | ⟨habs, -⟩ := abs_cases (n + w / 16384 - num / den : ℚ)
  · linarith
  · linarith

end Quotient

/-! Indices. -/

theorem value_edge : (Single.ofInt edge).value? = some 20000 := by
  have hroom : single.Represents (edge.natAbs : ℕ) := Format.represents_nat (by decide) (by decide)
  exact Single.value_ofInt hroom (by decide)

section Floor

variable {num den : ℕ}

/-- The floor of a quotient is kept by rounding. -/
theorem floor_rounded (hden : 0 < den) (hcoordinate : single.Represents (20000 * (num / den)))
    (h : (num / den : ℚ) < 32767) : ⌊single.rounded num den⌋ = ⌊(num / den : ℚ)⌋ := by
  obtain rfl | hnum := Nat.eq_zero_or_pos num
  · rw [Format.rounded_zero den hden, Nat.cast_zero, zero_div]
  · have hnonneg : (0 : ℚ) ≤ num / den := by positivity
    obtain ⟨n, hn⟩ := Int.eq_ofNat_of_zero_le (Int.floor_nonneg.mpr hnonneg)
    obtain ⟨hlow, hhigh⟩ := Int.floor_eq_iff.mp hn
    have hbound : n < 32767 := by exact_mod_cast hlow.trans_lt h
    have hroom : single.Represents n := by
      refine Format.represents_nat (by decide) ?_
      change n ≤ 2 ^ 24
      omega
    have hnext := rounded_lt (n := n + 1) hnum hden (by omega) hcoordinate (by exact_mod_cast hhigh)
    rw [hn, Int.floor_eq_iff]
    exact ⟨Format.le_rounded hnum hden hroom hlow, by exact_mod_cast hnext⟩

/-- The ceiling is kept too, as long as the quotient does not vanish. -/
theorem ceil_rounded (hnum : 0 < num) (hden : 0 < den)
    (hcoordinate : single.Represents (20000 * (num / den))) (h : (num / den : ℚ) < 32767)
    (hvisible : single.rounded num den ≠ 0) : ⌈single.rounded num den⌉ = ⌈(num / den : ℚ)⌉ := by
  have hpos : (0 : ℚ) < num / den := by positivity
  obtain ⟨n, hn⟩ := Int.eq_ofNat_of_zero_le (Int.le_sub_one_of_lt (Int.ceil_pos.mpr hpos))
  have hceil : ⌈(num / den : ℚ)⌉ = (n : ℤ) + 1 := by omega
  obtain ⟨hlow, hhigh⟩ := Int.ceil_eq_iff.mp hceil
  push_cast at hlow hhigh
  rw [add_sub_cancel_right] at hlow
  have hbound : n < 32767 := by exact_mod_cast hlow.trans h
  have hroom : single.Represents (n + 1 : ℕ) := by
    refine Format.represents_nat (by decide) ?_
    change n + 1 ≤ 2 ^ 24
    omega
  have hbelow := Format.rounded_le hnum hden hroom (by exact_mod_cast hhigh)
  have habove : (n : ℚ) < single.rounded num den := by
    obtain rfl | h0 := Nat.eq_zero_or_pos n
    · have hnonneg : (0 : ℚ) ≤ single.rounded num den := by
        unfold Format.rounded
        positivity
      rw [Nat.cast_zero]
      exact lt_of_le_of_ne hnonneg hvisible.symm
    · exact lt_rounded hnum hden h0 (by omega) hcoordinate hlow
  rw [hceil, Int.ceil_eq_iff]
  push_cast at hbelow ⊢
  rw [add_sub_cancel_right]
  exact ⟨habove, hbelow⟩

end Floor

theorem vanishing_iff {u : ℚ} {num den : ℕ} (hneg : u < 0) (hden : 0 < den)
    (hratio : (num / den : ℚ) = |u| / 20000) : Vanishing u ↔ single.rounded num den = 0 := by
  have hpos : (0 : ℚ) < num / den := by
    rw [hratio]
    exact div_pos (abs_pos.mpr hneg.ne) (by norm_num)
  have hnum : 0 < num := Nat.pos_of_ne_zero fun hzero => by simp [hzero] at hpos
  rw [Format.rounded_eq_zero_iff hnum hden, hratio, abs_of_neg hneg, div_le_iff₀ (by norm_num)]
  change -10000 * 2 ^ (-149 : ℤ) ≤ u ∧ u < 0 ↔ -u ≤ 2 ^ (-149 - 1 : ℤ) * 20000
  rw [and_iff_left hneg, zpow_sub_one₀ (by norm_num)]
  generalize (2 : ℚ) ^ (-149 : ℤ) = smallest
  constructor
  · intro h
    linarith
  · intro h
    linarith

theorem floor_bounds {u : ℚ} {n : ℤ} (h : |u| < 20000 * n) :
    -n ≤ ⌊u / 20000⌋ ∧ ⌊u / 20000⌋ < n := by
  obtain ⟨hlow, hhigh⟩ := abs_lt.mp h
  constructor
  · rw [Int.le_floor, le_div_iff₀ (by norm_num)]
    push_cast
    linarith
  · rw [Int.floor_lt, div_lt_iff₀ (by norm_num)]
    linarith

/-- The floor of a coordinate in sectors, and what it is taken for where the quotient vanishes. -/
theorem floor_quotient {x : Single} {u : ℚ} (hx : x.value? = some u) (h : |u| < 20000 * 32767) :
    (Vanishing u → (x / Single.ofInt edge).floorInt64 = 0) ∧
    (¬ Vanishing u → (x / Single.ofInt edge).floorInt64 = ⌊u / 20000⌋) := by
  have hroom : (20000 : ℚ) * 32767 < 20000 * 2 ^ 64 := by norm_num
  obtain ⟨num, den, hden, hratio, hquotient⟩ :=
    Single.value_div hx value_edge (by norm_num) (h.trans hroom)
  have hbound : (num / den : ℚ) < 32767 := by
    rw [hratio, div_lt_iff₀' (by norm_num)]
    exact h
  -- the coordinate is a number of the format, so rounding the quotient cannot pass a multiple
  have hcoordinate : single.Represents (20000 * (num / den)) := by
    rw [hratio, mul_div_cancel₀ _ (by norm_num)]
    exact Single.represents_value hx
  obtain ⟨hfrom, hto⟩ := floor_bounds (n := 32767) h
  have hfits : clamp64 ⌊u / 20000⌋ = ⌊u / 20000⌋ := by
    unfold clamp64
    omega
  rw [Single.floorInt64_of_value hquotient]
  by_cases hneg : u < 0
  · -- the floor of the number is the ceiling of its magnitude
    rw [if_pos hneg, vanishing_iff hneg hden hratio]
    constructor
    · intro hzero
      rw [hzero, neg_zero]
      rfl
    · intro hvisible
      have hnum : 0 < num := by
        refine Nat.pos_of_ne_zero fun hzero => hvisible ?_
        rw [hzero, Format.rounded_zero den hden]
      rw [Int.floor_neg, ceil_rounded hnum hden hcoordinate hbound hvisible, hratio,
        abs_of_neg hneg, neg_div, Int.ceil_neg, neg_neg, hfits]
  · have hnonneg : 0 ≤ u := not_lt.mp hneg
    rw [if_neg hneg]
    constructor
    · intro hvanishing
      exact absurd hvanishing.2 hneg
    · intro _
      rw [floor_rounded hden hcoordinate hbound, hratio, abs_of_nonneg hnonneg, hfits]

/-- The indices of coordinates for which a quotient is far from 64 bits. -/
theorem index_eq {x : Single} {u : ℚ} (hx : x.value? = some u) (h : |u| < 20000 * 32767) :
    (Vanishing u → index x = 5) ∧ (¬ Vanishing u → index x = ⌊u / 20000⌋ + 5) := by
  obtain ⟨hvanishing, hvisible⟩ := floor_quotient hx h
  obtain ⟨hfrom, hto⟩ := floor_bounds (n := 32767) h
  unfold index
  constructor
  · intro hu
    rw [hvanishing hu]
    rfl
  · intro hu
    rw [hvisible hu]
    unfold clamp64
    omega

/-! Corners. -/

/-- The edges of the grid are exact numbers as long as their odd part has room. -/
theorem value_corner {k : ℤ} (h : k.natAbs ≤ 26843) :
    (Single.ofInt (k * edge)).value? = some (k * 20000 : ℚ) := by
  have hmagnitude : (k * edge).natAbs = k.natAbs * 20000 := Int.natAbs_mul k edge
  have hroom : single.Represents (k * edge).natAbs := by
    refine ⟨625 * k.natAbs, 5, ?_, by decide, ?_⟩
    · change 625 * k.natAbs ≤ 2 ^ 24
      omega
    · rw [hmagnitude]
      push_cast
      norm_num
      ring
  rw [Single.value_ofInt hroom (by omega)]
  unfold edge
  push_cast
  rfl

/-- The index of an edge is the number it was made from. -/
theorem index_corner {k : ℤ} (h : k.natAbs ≤ 26843) : index (Single.ofInt (k * edge)) = k + 5 := by
  have hbounds : (-26843 : ℚ) ≤ k ∧ (k : ℚ) ≤ 26843 := by
    constructor
    · exact_mod_cast (by omega : -26843 ≤ k)
    · exact_mod_cast (by omega : k ≤ 26843)
  have habs : |(k * 20000 : ℚ)| < 20000 * 32767 := by
    rw [abs_lt]
    constructor
    · linarith
    · linarith
  have hvisible : ¬ Vanishing (k * 20000 : ℚ) := by
    rintro ⟨hlow, hneg⟩
    have hk : (k : ℚ) ≤ (-1 : ℤ) := by
      have hk' : (k : ℚ) < 0 := by linarith
      exact Int.cast_le.mpr (Int.le_sub_one_of_lt (Int.cast_lt_zero.mp hk'))
    have hsmall : (2 : ℚ) ^ (-149 : ℤ) < 1 := by norm_num
    push_cast at hk
    linarith
  rw [(index_eq (value_corner h) habs).2 hvisible, mul_div_cancel_right₀ _ (by norm_num),
    Int.floor_intCast]

/-- The corner of a sector belongs to it. -/
theorem containing_corner {s : Sector} (hlow : minRow ≤ s.row) (hhigh : s.row ≤ maxRow)
    (hcolumn : (s.column - 5).natAbs ≤ 26843) : containing s.corner.1 s.corner.2 = s := by
  have hmin : minRow = -676 := rfl
  have hmax : maxRow = 701 := rfl
  unfold containing corner
  rw [index_corner hcolumn, index_corner (by omega), sub_add_cancel, sub_add_cancel,
    min_eq_right hhigh, max_eq_right hlow]

/-- What the index of a coordinate says about it. -/
theorem exists_index {x : Single} {u : ℚ} (hx : x.value? = some u) (h : |u| < 20000 * 26843) :
    ∃ k : ℤ, index x = k + 5 ∧ k.natAbs ≤ 26843 ∧
      (¬ Vanishing u → k * 20000 ≤ u ∧ u < k * 20000 + 20000) ∧ (Vanishing u → k = 0) := by
  obtain ⟨hvanishing, hvisible⟩ := index_eq hx (h.trans (by norm_num))
  by_cases hu : Vanishing u
  · exact ⟨0, hvanishing hu, by decide, fun h => absurd hu h, fun _ => rfl⟩
  · obtain ⟨hfrom, hto⟩ := floor_bounds (n := 26843) h
    obtain ⟨hfloor, hnext⟩ := Int.floor_eq_iff.mp (rfl : ⌊u / 20000⌋ = ⌊u / 20000⌋)
    rw [le_div_iff₀ (by norm_num)] at hfloor
    rw [div_lt_iff₀ (by norm_num), add_mul, one_mul] at hnext
    exact ⟨⌊u / 20000⌋, hvisible hu, by omega, fun _ => ⟨hfloor, hnext⟩, fun h => absurd h hu⟩

/-- The corner that the name of a position's sector is read as. The sector contains the position,
unless a quotient vanishes; then the sector right of it or below it is named. -/
theorem named_sector_contains {x y : Single} {u v : ℚ} (hx : x.value? = some u)
    (hy : y.value? = some v) (hu : |u| ≤ 500000000) (hlow : -13620000 ≤ v) (hhigh : v < 13940000) :
    ∃ left top : ℚ,
      (position (containing x y).name).1.value? = some left ∧
      (position (containing x y).name).2.value? = some top ∧
      (¬ Vanishing u → left ≤ u ∧ u < left + 20000) ∧ (Vanishing u → left = 0) ∧
      (¬ Vanishing v → top ≤ v ∧ v < top + 20000) ∧ (Vanishing v → top = 0) := by
  have habs : |v| < 20000 * 26843 := by
    rw [abs_lt]
    constructor
    · linarith
    · linarith
  obtain ⟨k, hcolumn, hkroom, hk, hkzero⟩ := exists_index hx (hu.trans_lt (by norm_num))
  obtain ⟨l, hrow, hlroom, hl, hlzero⟩ := exists_index hy habs
  -- the bounds on the second coordinate are those of the rows that have names
  have hrows : minRow ≤ l + 5 ∧ l + 5 ≤ maxRow := by
    have hmin : minRow = -676 := rfl
    have hmax : maxRow = 701 := rfl
    by_cases hv : Vanishing v
    · rw [hlzero hv]
      decide
    · obtain ⟨hfrom, hto⟩ := hl hv
      have habove : ((-682 : ℤ) : ℚ) < l := by
        push_cast
        linarith
      have hbelow : (l : ℚ) < (697 : ℤ) := by
        push_cast
        linarith
      have hfirst : -682 < l := Int.cast_lt.mp habove
      have hlast : l < 697 := Int.cast_lt.mp hbelow
      omega
  have hsector : containing x y = ⟨l + 5, k + 5⟩ := by
    unfold containing
    rw [hrow, hcolumn, min_eq_right hrows.2, max_eq_right hrows.1]
  have hcolumns : -0x80000000 ≤ k + 5 ∧ k + 5 < 0x80000000 := by omega
  have hcorner : position (containing x y).name =
      (Single.ofInt (k * edge), Single.ofInt (l * edge)) := by
    rw [hsector, position_name hrows.1 hrows.2, if_pos hcolumns]
    unfold corner
    rw [add_sub_cancel_right, add_sub_cancel_right]
  refine ⟨k * 20000, l * 20000, ?_, ?_, hk, ?_, hl, ?_⟩
  · rw [hcorner]
    exact value_corner hkroom
  · rw [hcorner]
    exact value_corner hlroom
  · intro hvanishing
    rw [hkzero hvanishing, Int.cast_zero, zero_mul]
  · intro hvanishing
    rw [hlzero hvanishing, Int.cast_zero, zero_mul]

/-- The last coordinate before the edge between `F1` and `F2` stays before it. -/
theorem edge_is_not_crossed :
    Single.value? ⟨0xC76A6001⟩ = some (-60000 - 1 / 256) ∧ Single.value? ⟨0⟩ = some 0 ∧
    |(-60000 - 1 / 256 : ℚ)| ≤ 500000000 ∧ (-13620000 : ℚ) ≤ 0 ∧ (0 : ℚ) < 13940000 ∧
    ∃ left : ℚ, (position (containing ⟨0xC76A6001⟩ ⟨0⟩).name).1.value? = some left ∧
      left ≤ -60000 - 1 / 256 := by
  have hreading : Single.reading ⟨0xC76A6001⟩ = .finite true 15360001 (-8) := by decide
  have horigin : Single.reading ⟨0⟩ = .finite false 0 (-149) := by decide
  have hx : Single.value? ⟨0xC76A6001⟩ = some (-60000 - 1 / 256) := by
    rw [Single.value_of_reading hreading]
    norm_num
  have hy : Single.value? ⟨0⟩ = some 0 := by
    rw [Single.value_of_reading horigin]
    norm_num
  have hu : |(-60000 - 1 / 256 : ℚ)| ≤ 500000000 := by
    rw [abs_of_neg (by norm_num)]
    norm_num
  obtain ⟨left, top, hleft, -, hcontains, -⟩ :=
    named_sector_contains hx hy hu (by norm_num) (by norm_num)
  refine ⟨hx, hy, hu, by norm_num, by norm_num, left, hleft, (hcontains ?_).1⟩
  intro hvanishing
  have hnear := hvanishing.1
  norm_num at hnear

/-- The last coordinate before the edge at the origin is placed into the sector behind it. -/
theorem smallest_coordinate_is_misplaced :
    Single.value? ⟨0x80000001⟩ = some (-2 ^ (-149 : ℤ)) ∧ Single.value? ⟨0⟩ = some 0 ∧
    |(-2 ^ (-149 : ℤ) : ℚ)| ≤ 500000000 ∧
    (containing ⟨0x80000001⟩ ⟨0⟩).name = "F5" ∧ (position "F5").1.value? = some 0 ∧
    ¬ (0 : ℚ) ≤ -2 ^ (-149 : ℤ) := by
  have hreading : Single.reading ⟨0x80000001⟩ = .finite true 1 (-149) := by decide
  have horigin : Single.reading ⟨0⟩ = .finite false 0 (-149) := by decide
  have hcorner : (position "F5").1.reading = .finite false 0 (-149) := by decide
  have hsmall : (0 : ℚ) < 2 ^ (-149 : ℤ) := by positivity
  refine ⟨?_, ?_, ?_, by decide, ?_, ?_⟩
  · rw [Single.value_of_reading hreading]
    norm_num
  · rw [Single.value_of_reading horigin]
    norm_num
  · rw [abs_neg, abs_of_pos hsmall]
    norm_num
  · rw [Single.value_of_reading hcorner]
    norm_num
  · exact not_le.mpr (neg_neg_of_pos hsmall)

end ScenarioHost.Sector
