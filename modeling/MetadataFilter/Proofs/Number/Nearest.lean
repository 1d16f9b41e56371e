import MetadataFilter.Proofs.Number.Shortest

/-!
# Which number is nearest

`Binary64.IsNearest` says what rounding to the nearest number is, without computing it: no other
number is nearer to a rational, and of two equally near ones the even one is taken. The magnitude of
an infinity is the power of two behind the largest finite number, so that it is nearest from half a
unit above that number on.

* `Binary64.isNearest_of_mem`: a finite number is nearest to everything in its interval.
* `Binary64.IsNearest.rank_eq`: there is no other one, its sign apart.
-/

namespace MetadataFilter.Binary64

/-- The magnitude that a finite number stands for. -/
def magnitude (x : Binary64) : ℚ := x.significand * 2 ^ x.scale

/-- The number is nearest to a rational that is not negative, its sign apart. -/
structure IsNearest (v : ℚ) (x : Binary64) : Prop where
  number : x.isNaN = false
  le : ∀ y : Binary64, y.isNaN = false → |v - x.magnitude| ≤ |v - y.magnitude|
  even : ∀ y : Binary64, y.isNaN = false → y.magnitude ≠ x.magnitude →
    |v - y.magnitude| = |v - x.magnitude| → x.significand % 2 = 0

theorem isNaN_eq_false_iff (x : Binary64) : x.isNaN = false ↔ x.rank ≤ infiniteRank := by
  have h := x.exponent_lt
  have h' := x.fraction_lt
  simp only [isNaN, Bool.and_eq_false_iff, beq_eq_false_iff_ne, bne_eq_false_iff_eq, rank,
    infiniteRank]
  omega

/-! ## Magnitudes -/

variable {x y : Binary64}

theorem significand_ge (h : -1074 < x.scale) : 2 ^ 52 ≤ x.significand := by
  unfold scale at h
  unfold significand
  split <;> omega

theorem two_zpow_le_half {j k : Int} (h : j < k) : (2 : ℚ) ^ j ≤ 2 ^ k / 2 := by
  calc (2 : ℚ) ^ j ≤ 2 ^ (k - 1) := zpow_le_zpow_right₀ (by norm_num) (by omega)
    _ = 2 ^ k / 2 := by rw [zpow_sub₀ (by norm_num), zpow_one]

theorem scale_le_of_rank_lt (h : x.rank < y.rank) : x.scale ≤ y.scale := by
  by_contra less
  have := significand_ge (lt_of_le_of_lt y.scale_ge (not_le.1 less))
  have := y.significand_lt
  have := x.scale_ge
  have := y.scale_ge
  rw [rank_eq, rank_eq] at h
  omega

theorem significand_lt_of_rank_lt (h : x.rank < y.rank) (same : x.scale = y.scale) :
    x.significand < y.significand := by
  rw [rank_eq, rank_eq, same] at h
  omega

/-- The next magnitude is a unit above. -/
theorem magnitude_add_unit_le (h : x.rank < y.rank) :
    x.magnitude + 2 ^ x.scale ≤ y.magnitude := by
  have unit := two_zpow_pos x.scale
  unfold magnitude
  rcases (scale_le_of_rank_lt h).eq_or_lt with same | less
  · have next : (x.significand : ℚ) + 1 ≤ y.significand := by
      exact_mod_cast significand_lt_of_rank_lt h same
    rw [← same]
    nlinarith
  · have ends : (x.significand : ℚ) + 1 ≤ 2 ^ 53 := by exact_mod_cast x.significand_lt
    have starts : (2 : ℚ) ^ 52 ≤ y.significand := by
      exact_mod_cast significand_ge (lt_of_le_of_lt x.scale_ge less)
    have half := two_zpow_le_half less
    calc (x.significand : ℚ) * 2 ^ x.scale + 2 ^ x.scale
        = (x.significand + 1) * 2 ^ x.scale := by ring
      _ ≤ 2 ^ 53 * 2 ^ x.scale := mul_le_mul_of_nonneg_right ends unit.le
      _ ≤ 2 ^ 53 * (2 ^ y.scale / 2) := mul_le_mul_of_nonneg_left half (by norm_num)
      _ = 2 ^ 52 * 2 ^ y.scale := by ring
      _ ≤ y.significand * 2 ^ y.scale := mul_le_mul_of_nonneg_right starts (two_zpow_pos _).le

theorem magnitude_lt (h : x.rank < y.rank) : x.magnitude < y.magnitude := by
  have := magnitude_add_unit_le h
  linarith [two_zpow_pos x.scale]

theorem magnitude_eq_of_rank_eq (h : x.rank = y.rank) : x.magnitude = y.magnitude := by
  have fields : x.exponent = y.exponent ∧ x.fraction = y.fraction := by
    have := x.fraction_lt
    have := y.fraction_lt
    unfold rank at h
    omega
  simp only [magnitude, significand, scale, fields.1, fields.2]

/-- The magnitude before is twice the gap below: a unit, or half of one below a power of two. -/
theorem magnitude_add_gap_le (h : y.rank < x.rank) :
    y.magnitude + 2 * x.lowerGap * 2 ^ x.scale ≤ x.magnitude := by
  have unit := two_zpow_pos x.scale
  have gap := x.lowerGap_le_half
  rcases (scale_le_of_rank_lt h).eq_or_lt with same | less
  · have next := magnitude_add_unit_le h
    rw [same] at next
    nlinarith
  · -- all of the smaller unit lies below the first significand with the larger one
    have ends : (y.significand : ℚ) ≤ 2 ^ 53 - 1 := by
      have : (y.significand : ℚ) + 1 ≤ 2 ^ 53 := by exact_mod_cast y.significand_lt
      linarith
    have half := two_zpow_le_half less
    have below : y.magnitude ≤ (2 ^ 52 - 1 / 2) * 2 ^ x.scale := by
      calc y.magnitude ≤ (2 ^ 53 - 1) * 2 ^ y.scale :=
            mul_le_mul_of_nonneg_right ends (two_zpow_pos _).le
        _ ≤ (2 ^ 53 - 1) * (2 ^ x.scale / 2) := mul_le_mul_of_nonneg_left half (by norm_num)
        _ = (2 ^ 52 - 1 / 2) * 2 ^ x.scale := by ring
    have starts := significand_ge (lt_of_le_of_lt y.scale_ge less)
    have room : (2 : ℚ) ^ 52 - 1 / 2 + 2 * x.lowerGap ≤ x.significand := by
      by_cases power : x.fraction = 0 ∧ 1 < x.exponent
      · have starts' : (2 : ℚ) ^ 52 ≤ x.significand := by exact_mod_cast starts
        rw [lowerGap, if_pos power]
        linarith
      · have larger : 2 ^ 52 + 1 ≤ x.significand := by
          have scale_gt := lt_of_le_of_lt y.scale_ge less
          unfold scale at scale_gt
          unfold significand
          split <;> omega
        have larger' : (2 : ℚ) ^ 52 + 1 ≤ x.significand := by exact_mod_cast larger
        rw [lowerGap, if_neg power]
        linarith
    unfold magnitude at below ⊢
    nlinarith

/-! ## Nearest numbers -/

/-- A finite number is nearer to what lies in its interval than any other number is; only an even
one shares an end of the interval. -/
theorem isNearest_of_mem {v : ℚ} (finite : x.isFinite = true) (nonzero : x.isZero = false)
    (mem : x.interval.Mem v) : IsNearest v x := by
  have ends := mem.le
  rw [low_interval nonzero, high_interval] at ends
  have inside : x.magnitude - x.lowerGap * 2 ^ x.scale ≤ v ∧
      v ≤ x.magnitude + 1 / 2 * 2 ^ x.scale := by
    unfold magnitude
    constructor <;> linarith
  have strict (odd : x.significand % 2 = 1) :
      x.magnitude - x.lowerGap * 2 ^ x.scale < v ∧ v < x.magnitude + 1 / 2 * 2 ^ x.scale := by
    have ends := mem.lt (by simp [interval, odd])
    rw [low_interval nonzero, high_interval] at ends
    unfold magnitude
    constructor <;> linarith
  have unit := two_zpow_pos x.scale
  have gap := mul_pos x.lowerGap_pos unit
  refine ⟨?_, fun y _ => ?_, fun y _ other tie => ?_⟩
  · rw [isNaN_eq_false_iff]
    exact ((isFinite_iff_rank_lt x).1 finite).le
  · rcases lt_trichotomy x.rank y.rank with less | same | less
    · have above := magnitude_add_unit_le less
      rw [abs_le]
      constructor <;> linarith [neg_abs_le (v - y.magnitude)]
    · rw [magnitude_eq_of_rank_eq same]
    · have below := magnitude_add_gap_le less
      rw [abs_le]
      constructor <;> linarith [le_abs_self (v - y.magnitude)]
  · by_contra notEven
    obtain ⟨low, high⟩ := strict (by omega)
    refine absurd tie (ne_of_gt ?_)
    rcases lt_trichotomy x.rank y.rank with less | same | less
    · have above := magnitude_add_unit_le less
      rw [abs_lt]
      constructor <;> linarith [neg_abs_le (v - y.magnitude)]
    · exact absurd (magnitude_eq_of_rank_eq same).symm other
    · have below := magnitude_add_gap_le less
      rw [abs_lt]
      constructor <;> linarith [le_abs_self (v - y.magnitude)]

theorem magnitude_of_isZero (zero : x.isZero = true) : x.magnitude = 0 := by
  simp [magnitude, significand_of_isZero zero]

/-- A zero is nearest to zero. -/
theorem isNearest_zero (zero : x.isZero = true) : IsNearest 0 x := by
  have rank : x.rank = 0 := by simpa [isZero] using zero
  have least := magnitude_of_isZero zero
  refine ⟨?_, fun y _ => ?_, fun y _ other tie => ?_⟩
  · rw [isNaN_eq_false_iff, rank]
    exact Nat.zero_le _
  · rw [least, sub_zero, abs_zero]
    exact abs_nonneg _
  · rw [least, sub_zero, abs_zero, zero_sub, abs_neg, abs_eq_zero] at tie
    exact absurd (tie.trans least.symm) other

/-- A finite number is nearest to its own magnitude. -/
theorem isNearest_magnitude (finite : x.isFinite = true) : IsNearest x.magnitude x := by
  by_cases zero : x.isZero = true
  · rw [magnitude_of_isZero zero]
    exact isNearest_zero zero
  · rw [Bool.not_eq_true] at zero
    exact isNearest_of_mem finite zero (mem_interval_self zero)

theorem significand_parity (x : Binary64) : x.rank % 2 = x.significand % 2 := by
  rw [rank_eq]
  omega

/-- Of two magnitudes at the same distance, the one between them is nearer. -/
theorem IsNearest.not_rank_lt {v : ℚ} (hx : IsNearest v x) (hy : IsNearest v y) :
    ¬x.rank < y.rank := by
  intro less
  have between := magnitude_lt less
  have tie : |v - x.magnitude| = |v - y.magnitude| :=
    le_antisymm (hx.le y hy.number) (hy.le x hx.number)
  have middle : 2 * v = x.magnitude + y.magnitude := by
    rcases abs_eq_abs.1 tie with same | opposite <;> linarith
  have evenX := hx.even y hy.number between.ne' tie.symm
  have evenY := hy.even x hx.number between.ne tie
  -- both are even, so they are no neighbours
  have apart : x.rank + 1 < y.rank := by
    have := x.significand_parity
    have := y.significand_parity
    omega
  have last := (isNaN_eq_false_iff y).1 hy.number
  let z := ofRank false (x.rank + 1) (by have := y.rank_lt; omega)
  have rank : z.rank = x.rank + 1 := rank_ofRank _ _ _
  have number : z.isNaN = false := (isNaN_eq_false_iff z).2 (by omega)
  have above := magnitude_lt (x := x) (y := z) (by omega)
  have below := magnitude_lt (x := z) (y := y) (by omega)
  have nearer : |v - z.magnitude| < |v - x.magnitude| := by
    rw [abs_lt]
    constructor <;> linarith [le_abs_self (v - x.magnitude)]
  exact absurd (hx.le z number) (not_le.2 nearer)

/-- **Only one magnitude is nearest.** -/
theorem IsNearest.rank_eq {v : ℚ} (hx : IsNearest v x) (hy : IsNearest v y) : x.rank = y.rank :=
  le_antisymm (not_lt.1 (hy.not_rank_lt hx)) (not_lt.1 (hx.not_rank_lt hy))

theorem eq_of_rank_eq (rank : x.rank = y.rank) (sign : x.negative = y.negative) : x = y := by
  rw [← ofRank_rank x, ← ofRank_rank y]
  simp only [rank, sign]

end MetadataFilter.Binary64
