import Mathlib.Data.Nat.Cast.Field
import MetadataFilter.Proofs.Number.Rounding

/-!
# The shortest decimal reads back

`Binary64.shortest` looks for a multiple of a power of ten in the interval of a number. Whatever it
gives lies in the interval (`Binary64.shortest_mem`), and `Decimal.nearest` takes every decimal in
the interval back to the number (`Decimal.nearest_eq_of_mem`), among them the exact integer of a
number without a fractional part (`Binary64.wholeMagnitude_value`).
-/

namespace MetadataFilter

/-- The rational number that a decimal stands for, without its sign. -/
def decimalValue (coefficient : Nat) (power : Int) : ℚ := coefficient * 10 ^ power

theorem ten_zpow_pos (k : Int) : (0 : ℚ) < 10 ^ k := zpow_pos (by norm_num) k

namespace Binary64

/-! ## Comparisons on a grid -/

namespace Interval

variable {i : Interval} {power : Int}

/-- The denominator that both sides of a comparison are cleared of. -/
def clearing (i : Interval) (power : Int) : ℚ := 2 ^ (-i.scale).toNat * 10 ^ (-power).toNat

theorem clearing_pos (i : Interval) (power : Int) : 0 < i.clearing power := by
  unfold clearing
  positivity

theorem multiple_cleared (i : Interval) (power : Int) (multiple : Nat) :
    decimalValue multiple power * i.clearing power =
      (multiple * (10 ^ power.toNat * 2 ^ (-i.scale).toNat) : Nat) := by
  rw [decimalValue, clearing, zpow_eq_div 10 power]
  push_cast
  field_simp

theorem quarters_cleared (i : Interval) (power : Int) (quarters : Nat) :
    (quarters : ℚ) * 2 ^ i.scale * i.clearing power =
      (quarters * (2 ^ i.scale.toNat * 10 ^ (-power).toNat) : Nat) := by
  rw [clearing, zpow_eq_div 2 i.scale]
  push_cast
  field_simp

theorem gridAtMost_iff (i : Interval) (power : Int) (multiple quarters : Nat) :
    i.gridAtMost power multiple quarters = true ↔
      decimalValue multiple power ≤ quarters * 2 ^ i.scale := by
  rw [gridAtMost, decide_eq_true_eq, ← Nat.cast_le (α := ℚ), ← multiple_cleared, ← quarters_cleared,
    mul_le_mul_iff_of_pos_right (i.clearing_pos power)]

theorem gridAtLeast_iff (i : Interval) (power : Int) (multiple quarters : Nat) :
    i.gridAtLeast power multiple quarters = true ↔
      quarters * 2 ^ i.scale ≤ decimalValue multiple power := by
  rw [gridAtLeast, decide_eq_true_eq, ← Nat.cast_le (α := ℚ), ← multiple_cleared,
    ← quarters_cleared, mul_le_mul_iff_of_pos_right (i.clearing_pos power)]

theorem holds_iff (i : Interval) (power : Int) (multiple : Nat) :
    i.holds power multiple = true ↔ i.Mem (decimalValue multiple power) := by
  unfold holds Mem
  split
  · rw [Bool.and_eq_true, gridAtLeast_iff, gridAtMost_iff]
  · rw [Bool.and_eq_true, Bool.not_eq_true', Bool.not_eq_true', ← Bool.not_eq_true,
      ← Bool.not_eq_true, gridAtLeast_iff, gridAtMost_iff, not_le, not_le]

theorem onGrid?_mem {tie : Tie} {multiple : Nat} (h : i.onGrid? tie power = some multiple) :
    i.Mem (decimalValue multiple power) := by
  rw [← holds_iff]
  unfold onGrid? at h
  cases hb : i.holds power (i.below power) <;> cases ha : i.holds power (i.below power + 1) <;>
    simp only [hb, ha] at h
  · cases h
  · cases h
    exact ha
  · cases h
    exact hb
  -- both neighbours hit: either of them is in the interval
  · have neighbour : multiple = i.below power ∨ multiple = i.below power + 1 := by
      split_ifs at h
      · exact .inl (by simpa using h.symm)
      · exact .inr (by simpa using h.symm)
      · cases tie <;> simp only [Option.some.injEq] at h <;> omega
    rcases neighbour with rfl | rfl
    · exact hb
    · exact ha

theorem firstOnGrid?_mem {tie : Tie} {steps : Nat} {power : Int} {c : Nat} {p : Int}
    (h : i.firstOnGrid? tie steps power = some (c, p)) : i.Mem (decimalValue c p) := by
  induction steps generalizing power with
  | zero => simp [firstOnGrid?] at h
  | succ steps ih =>
    unfold firstOnGrid? at h
    split at h
    · rename_i multiple hit
      cases h
      exact onGrid?_mem hit
    · exact ih h

end Interval

/-! ## The two ways a number is written -/

variable {x : Binary64}

/-- A number other than zero lies in its own interval. -/
theorem mem_interval_self (hx : x.isZero = false) :
    x.interval.Mem (x.significand * 2 ^ x.scale) := by
  have unit := two_zpow_pos x.scale
  have gap := x.lowerGap_pos
  unfold Interval.Mem
  rw [low_interval hx, high_interval]
  split
  · constructor <;> nlinarith
  · constructor <;> nlinarith

theorem exactDecimal_value (x : Binary64) :
    decimalValue x.exactDecimal.1 x.exactDecimal.2 = x.significand * 2 ^ x.scale := by
  have hmin : min x.scale 0 = -((-x.scale).toNat : Int) := by omega
  have ten : (10 : ℚ) = 2 * 5 := by norm_num
  simp only [exactDecimal, decimalValue, hmin, zpow_neg, zpow_natCast]
  rw [zpow_eq_div 2 x.scale, ten, mul_pow]
  push_cast
  field_simp

/-- The shortest decimal of a number lies in the interval of the number. -/
theorem shortest_mem (tie : Tie) (hx : x.isZero = false) :
    x.interval.Mem (decimalValue (x.shortest tie).1 (x.shortest tie).2) := by
  rw [shortest, if_neg (by simp [hx])]
  cases h : x.interval.firstOnGrid? tie 1384 309 with
  | some result =>
    obtain ⟨coefficient, power⟩ := result
    exact Interval.firstOnGrid?_mem h
  | none =>
    rw [Option.getD_none, exactDecimal_value]
    exact mem_interval_self hx

theorem wholeMagnitude_value (h : x.isWhole = true) :
    (x.wholeMagnitude : ℚ) = x.significand * 2 ^ x.scale := by
  simp only [isWhole, Bool.and_eq_true, beq_iff_eq] at h
  have divides : 2 ^ (-x.scale).toNat ∣ x.significand * 2 ^ x.scale.toNat :=
    Dvd.dvd.mul_right (Nat.dvd_of_mod_eq_zero h.2) _
  rw [wholeMagnitude, zpow_eq_div 2 x.scale, Nat.cast_div divides (by positivity)]
  push_cast
  rw [mul_div_assoc]

theorem significand_of_isZero (hx : x.isZero = true) : x.significand = 0 := by
  simp only [isZero, rank, beq_iff_eq] at hx
  unfold significand
  split <;> omega

theorem isWhole_of_isZero (finite : x.isFinite = true) (hx : x.isZero = true) :
    x.isWhole = true := by
  simp [isWhole, finite, significand_of_isZero hx]

theorem wholeMagnitude_of_isZero (hx : x.isZero = true) : x.wholeMagnitude = 0 := by
  simp [wholeMagnitude, significand_of_isZero hx]

/-! ## Bounds -/

theorem ten_pow_lt_least : (10 : ℚ) ^ (-400 : Int) < 2 ^ (-1075 : Int) := by
  have h : (2 : Nat) ^ 1075 < 10 ^ 400 := by decide +kernel
  have h' : (2 : ℚ) ^ 1075 < 10 ^ 400 := by exact_mod_cast h
  rw [zpow_neg, zpow_neg, zpow_ofNat, zpow_ofNat]
  exact inv_strictAnti₀ (by positivity) h'

theorem greatest_lt_ten_pow : (2 : ℚ) ^ (1024 : Int) < 10 ^ (309 : Int) := by
  have h : (2 : Nat) ^ 1024 < 10 ^ 309 := by decide +kernel
  rw [zpow_ofNat, zpow_ofNat]
  exact_mod_cast h

/-- No decimal in an interval has a size that `Decimal.nearest` cuts off. -/
theorem bounds_of_mem {v : ℚ} (finite : x.isFinite = true) (hx : x.isZero = false)
    (h : x.interval.Mem v) : (10 : ℚ) ^ (-400 : Int) < v ∧ v < 10 ^ (309 : Int) := by
  obtain ⟨low, high⟩ := h.le
  rw [low_interval hx] at low
  rw [high_interval] at high
  have unit := two_zpow_pos x.scale
  have pos : (1 : ℚ) ≤ x.significand := by exact_mod_cast significand_pos hx
  have small : (x.significand : ℚ) + 1 ≤ 2 ^ (53 : Int) := by exact_mod_cast x.significand_lt
  have gap := x.lowerGap_le_half
  have scale_le : x.scale ≤ 971 := by
    have := x.exponent_lt
    simp only [isFinite, bne_iff_ne, ne_eq] at finite
    unfold scale
    omega
  constructor
  · calc (10 : ℚ) ^ (-400 : Int) < 2 ^ (-1075 : Int) := ten_pow_lt_least
      _ ≤ 2 ^ (-1 + x.scale) := zpow_le_zpow_right₀ (by norm_num) (by linarith [x.scale_ge])
      _ = 1 / 2 * 2 ^ x.scale := by
        rw [zpow_add₀ (by norm_num), zpow_neg_one, one_div]
      _ ≤ (x.significand - x.lowerGap) * 2 ^ x.scale :=
        mul_le_mul_of_nonneg_right (by linarith) unit.le
      _ ≤ v := low
  · calc v ≤ (x.significand + 1 / 2) * 2 ^ x.scale := high
      _ ≤ 2 ^ (53 : Int) * 2 ^ x.scale := mul_le_mul_of_nonneg_right (by linarith) unit.le
      _ = 2 ^ (53 + x.scale) := (zpow_add₀ (by norm_num) _ _).symm
      _ ≤ 2 ^ (1024 : Int) := zpow_le_zpow_right₀ (by norm_num) (by linarith)
      _ < 10 ^ (309 : Int) := greatest_lt_ten_pow

end Binary64

/-! ## Decimals -/

namespace Decimal

open Binary64

/-- The first digit of a positive decimal stands at `size - 1`. -/
theorem size_bounds {coefficient : Nat} (power : Int) (h : 0 < coefficient) :
    (10 : ℚ) ^ (power + (Nat.toDigits 10 coefficient).length - 1) ≤ decimalValue coefficient power ∧
      decimalValue coefficient power < 10 ^ (power + (Nat.toDigits 10 coefficient).length) := by
  generalize hl : (Nat.toDigits 10 coefficient).length = l
  have positive : 0 < l := hl ▸ Nat.length_toDigits_pos
  have above : coefficient < 10 ^ l :=
    (Nat.length_toDigits_le_iff (by norm_num) positive).1 hl.le
  have below : 10 ^ (l - 1) ≤ coefficient := by
    by_contra hlt
    rcases Nat.eq_or_lt_of_le positive with rfl | many
    · simp at hlt
      omega
    · have := (Nat.length_toDigits_le_iff (b := 10) (by norm_num) (by omega : 0 < l - 1)).2
        (not_le.1 hlt)
      omega
  have above' : (coefficient : ℚ) < 10 ^ (l : Int) := by exact_mod_cast above
  have below' : (10 : ℚ) ^ ((l : Int) - 1) ≤ coefficient := by
    rw [show (l : Int) - 1 = ((l - 1 : Nat) : Int) by omega]
    exact_mod_cast below
  have unit := ten_zpow_pos power
  unfold decimalValue
  constructor
  · rw [show power + l - 1 = (l - 1 : Int) + power by omega, zpow_add₀ (by norm_num)]
    exact mul_le_mul_of_nonneg_right below' unit.le
  · rw [add_comm, zpow_add₀ (by norm_num)]
    exact mul_lt_mul_of_pos_right above' unit

theorem coefficient_pos_of_mem {x : Binary64} (finite : x.isFinite = true) (hx : x.isZero = false)
    {coefficient : Nat} {power : Int} (h : x.interval.Mem (decimalValue coefficient power)) :
    0 < coefficient := by
  obtain ⟨low, -⟩ := bounds_of_mem finite hx h
  rcases Nat.eq_zero_or_pos coefficient with rfl | positive
  · have zero : decimalValue 0 power = 0 := by simp [decimalValue]
    linarith [ten_zpow_pos (-400)]
  · exact positive

/-- A decimal in the interval of a finite number is read as that number. -/
theorem nearest_eq_of_mem {x : Binary64} (finite : x.isFinite = true) (hx : x.isZero = false)
    {coefficient : Nat} {power : Int} (h : x.interval.Mem (decimalValue coefficient power)) :
    nearest ⟨x.negative, coefficient, power⟩ = x := by
  obtain ⟨low, high⟩ := bounds_of_mem finite hx h
  have positive : 0 < coefficient := coefficient_pos_of_mem finite hx h
  obtain ⟨size1, size2⟩ := size_bounds power positive
  have notHuge : power + (Nat.toDigits 10 coefficient).length - 1 < 309 :=
    (zpow_lt_zpow_iff_right₀ (by norm_num)).1 (size1.trans_lt high)
  have notTiny : -400 < power + (Nat.toDigits 10 coefficient).length :=
    (zpow_lt_zpow_iff_right₀ (by norm_num)).1 (low.trans size2)
  have ratio : ((coefficient * 10 ^ power.toNat : Nat) : ℚ) / (10 ^ (-power).toNat : Nat) =
      decimalValue coefficient power := by
    rw [decimalValue, zpow_eq_div 10 power]
    push_cast
    rw [mul_div_assoc]
  simp only [nearest]
  rw [if_neg positive.ne', if_neg (by omega), if_neg (by omega)]
  exact Binary64.nearest_eq_of_mem finite hx (by positivity) (by positivity) (ratio ▸ h)

theorem nearest_zero {x : Binary64} (hx : x.isZero = true) (power : Int) :
    nearest ⟨x.negative, 0, power⟩ = x := by
  have rank : x.rank = 0 := by simpa [isZero] using hx
  simp only [nearest, if_true, zero]
  conv_rhs => rw [← ofRank_rank x]
  simp only [rank]

end Decimal

end MetadataFilter
