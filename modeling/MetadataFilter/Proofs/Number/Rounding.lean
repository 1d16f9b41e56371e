import Mathlib.Algebra.Order.Field.Power
import Mathlib.Tactic.FieldSimp
import Mathlib.Tactic.Linarith
import Mathlib.Tactic.NormNum
import Mathlib.Tactic.Ring
import MetadataFilter.Number.Shortest

/-!
# Rounding to the nearest number

The arithmetic of `Binary64.nearest` runs on natural numbers; here it is read in the rationals.

* `roundRatio_eq_of_roundsTo`: a ratio is rounded to the integer it lies within a half of, to the
  even one if there are two.
* `Binary64.floorLog_spec`: `floorLog` is the power of two just below a ratio.
* `Binary64.nearest_eq_of_mem`: every positive ratio in the interval of a finite number is rounded
  to that number. The lower end of the interval of a power of two is rounded with the smaller unit
  below it, and both roundings give the same rank.
-/

namespace MetadataFilter

/-- A power with an integer exponent, without negative powers. -/
theorem zpow_eq_div (b : ℚ) (k : Int) : b ^ k = b ^ k.toNat / b ^ (-k).toNat := by
  rcases Int.le_total 0 k with h | h
  · have e : (-k).toNat = 0 := by omega
    rw [e, pow_zero, div_one, ← zpow_natCast, Int.toNat_of_nonneg h]
  · have e : k.toNat = 0 := by omega
    have e' : (((-k).toNat : Nat) : Int) = -k := Int.toNat_of_nonneg (by omega)
    rw [e, pow_zero, one_div, ← zpow_natCast, e', zpow_neg, inv_inv]

/-! ## Integers -/

/-- The integer `m` is nearest to `v`; a half is only reached from an even integer. -/
def RoundsTo (v : ℚ) (m : Nat) : Prop :=
  (m : ℚ) - 1 / 2 ≤ v ∧ v ≤ m + 1 / 2 ∧ (m % 2 = 1 → (m : ℚ) - 1 / 2 < v ∧ v < m + 1 / 2)

theorem roundRatio_eq {n d m : Nat} (hd : 0 < d) (low : 2 * (d * m) ≤ 2 * n + d)
    (high : 2 * n ≤ 2 * (d * m) + d)
    (odd : m % 2 = 1 → 2 * (d * m) < 2 * n + d ∧ 2 * n < 2 * (d * m) + d) : roundRatio n d = m := by
  have hr : n % d < d := Nat.mod_lt n hd
  have hn : d * (n / d) + n % d = n := Nat.div_add_mod n d
  unfold roundRatio
  generalize n / d = q at *
  generalize n % d = r at *
  -- `m` is the quotient or the next integer
  have hqm : q ≤ m := by
    by_contra h
    have : d * (m + 1) ≤ d * q := Nat.mul_le_mul_left d (by omega)
    rw [Nat.mul_add] at this
    omega
  have hmq : m ≤ q + 1 := by
    by_contra h
    have : d * (q + 2) ≤ d * m := Nat.mul_le_mul_left d (by omega)
    rw [Nat.mul_add] at this
    omega
  rcases Nat.eq_or_lt_of_le hqm with rfl | hlt
  · split_ifs <;> omega
  · obtain rfl : m = q + 1 := by omega
    rw [Nat.mul_add, Nat.mul_one] at low high odd
    split_ifs <;> omega

theorem roundRatio_eq_of_roundsTo {n d m : Nat} (hd : 0 < d) (h : RoundsTo ((n : ℚ) / d) m) :
    roundRatio n d = m := by
  have hd' : (0 : ℚ) < d := by exact_mod_cast hd
  have hv : (n : ℚ) / d * d = n := div_mul_cancel₀ _ hd'.ne'
  obtain ⟨low, high, odd⟩ := h
  generalize (n : ℚ) / d = v at *
  apply roundRatio_eq hd
  · have : 2 * ((d : ℚ) * m) ≤ 2 * n + d := by nlinarith
    exact_mod_cast this
  · have : 2 * (n : ℚ) ≤ 2 * (d * m) + d := by nlinarith
    exact_mod_cast this
  · intro hm
    obtain ⟨low, high⟩ := odd hm
    have h1 : 2 * ((d : ℚ) * m) < 2 * n + d := by nlinarith
    have h2 : 2 * (n : ℚ) < 2 * (d * m) + d := by nlinarith
    exact ⟨by exact_mod_cast h1, by exact_mod_cast h2⟩

namespace Binary64

/-! ## Powers of two -/

theorem powerAtMost_iff (k : Int) (n : Nat) {d : Nat} (hd : 0 < d) :
    powerAtMost k n d = true ↔ (2 : ℚ) ^ k ≤ n / d := by
  have hd' : (0 : ℚ) < d := by exact_mod_cast hd
  rw [powerAtMost, decide_eq_true_eq, zpow_eq_div, div_le_div_iff₀ (by positivity) hd']
  constructor
  · intro h
    have : (d : ℚ) * 2 ^ k.toNat ≤ n * 2 ^ (-k).toNat := by exact_mod_cast h
    linarith
  · intro h
    have : (d : ℚ) * 2 ^ k.toNat ≤ n * 2 ^ (-k).toNat := by linarith
    exact_mod_cast this

theorem two_zpow_lt_iff {j k : Int} : (2 : ℚ) ^ j < 2 ^ k ↔ j < k :=
  zpow_lt_zpow_iff_right₀ (by norm_num)

theorem two_zpow_pos (k : Int) : (0 : ℚ) < 2 ^ k := zpow_pos (by norm_num) k

theorem log2_bounds {n : Nat} (hn : 0 < n) :
    (2 : ℚ) ^ (Nat.log2 n : Int) ≤ n ∧ (n : ℚ) < 2 ^ ((Nat.log2 n : Int) + 1) := by
  constructor
  · rw [zpow_natCast]
    exact_mod_cast Nat.log2_self_le hn.ne'
  · rw [← Nat.cast_succ, zpow_natCast]
    exact_mod_cast Nat.lt_log2_self

/-- The logarithms of numerator and denominator determine that of the ratio up to one. -/
theorem floorLog_spec {n d : Nat} (hn : 0 < n) (hd : 0 < d) :
    (2 : ℚ) ^ floorLog n d ≤ n / d ∧ (n : ℚ) / d < 2 ^ (floorLog n d + 1) := by
  have hd' : (0 : ℚ) < d := by exact_mod_cast hd
  obtain ⟨n1, n2⟩ := log2_bounds hn
  obtain ⟨d1, d2⟩ := log2_bounds hd
  have above : (n : ℚ) / d < 2 ^ ((Nat.log2 n : Int) - Nat.log2 d + 1) := by
    rw [div_lt_iff₀ hd']
    calc (n : ℚ) < 2 ^ ((Nat.log2 n : Int) + 1) := n2
      _ = 2 ^ ((Nat.log2 n : Int) - Nat.log2 d + 1) * 2 ^ (Nat.log2 d : Int) := by
        rw [← zpow_add₀ (by norm_num)]
        congr 1
        omega
      _ ≤ 2 ^ ((Nat.log2 n : Int) - Nat.log2 d + 1) * d :=
        mul_le_mul_of_nonneg_left d1 (two_zpow_pos _).le
  have below : (2 : ℚ) ^ ((Nat.log2 n : Int) - Nat.log2 d - 1) ≤ n / d := by
    rw [le_div_iff₀ hd']
    calc (2 : ℚ) ^ ((Nat.log2 n : Int) - Nat.log2 d - 1) * d
        ≤ 2 ^ ((Nat.log2 n : Int) - Nat.log2 d - 1) * 2 ^ ((Nat.log2 d : Int) + 1) :=
          mul_le_mul_of_nonneg_left d2.le (two_zpow_pos _).le
      _ = 2 ^ (Nat.log2 n : Int) := by
        rw [← zpow_add₀ (by norm_num)]
        congr 1
        omega
      _ ≤ n := n1
  unfold floorLog
  generalize (Nat.log2 n : Int) - Nat.log2 d = k at *
  simp only
  split
  · rename_i h
    exact ⟨(powerAtMost_iff k n hd).1 h, above⟩
  · rename_i h
    rw [powerAtMost_iff k n hd, not_le] at h
    exact ⟨below, by rwa [sub_add_cancel]⟩

/-! ## The nearest rank -/

/-- A ratio below `2 ^ (scale + 53)` that has 53 bits above the unit `2 ^ scale`, or no smaller
unit, is rounded with that unit. -/
theorem nearestRank_eq {n d m : Nat} {scale : Int} (hn : 0 < n) (hd : 0 < d)
    (hscale : -1074 ≤ scale) (high : (n : ℚ) / d < 2 ^ (scale + 53))
    (low : scale = -1074 ∨ (2 : ℚ) ^ (scale + 52) ≤ n / d)
    (rounds : RoundsTo ((n : ℚ) / d / 2 ^ scale) m) :
    nearestRank n d = (scale + 1074).toNat * 2 ^ 52 + m := by
  obtain ⟨log1, log2⟩ := floorLog_spec hn hd
  have hlog : floorLog n d < scale + 53 := two_zpow_lt_iff.1 (log1.trans_lt high)
  have unit : max (floorLog n d - 52) (-1074) = scale := by
    rcases low with rfl | low
    · omega
    · have : scale + 52 < floorLog n d + 1 := two_zpow_lt_iff.1 (low.trans_lt log2)
      omega
  have ratio : ((n * 2 ^ (-scale).toNat : Nat) : ℚ) / (d * 2 ^ scale.toNat : Nat) =
      n / d / 2 ^ scale := by
    rw [zpow_eq_div 2 scale]
    push_cast
    field_simp
  unfold nearestRank
  simp only [unit]
  rw [roundRatio_eq_of_roundsTo (by positivity) (ratio ▸ rounds)]

/-! ## Intervals -/

/-- The decimal or other ratio `v` lies in the interval. -/
def Interval.Mem (i : Interval) (v : ℚ) : Prop :=
  if i.closed then i.low * 2 ^ i.scale ≤ v ∧ v ≤ i.high * 2 ^ i.scale
  else i.low * 2 ^ i.scale < v ∧ v < i.high * 2 ^ i.scale

theorem Interval.Mem.le {i : Interval} {v : ℚ} (h : i.Mem v) :
    i.low * 2 ^ i.scale ≤ v ∧ v ≤ i.high * 2 ^ i.scale := by
  unfold Interval.Mem at h
  split at h
  · exact h
  · exact ⟨h.1.le, h.2.le⟩

theorem Interval.Mem.lt {i : Interval} {v : ℚ} (h : i.Mem v) (hi : i.closed = false) :
    i.low * 2 ^ i.scale < v ∧ v < i.high * 2 ^ i.scale := by
  simpa [Interval.Mem, hi] using h

variable {x : Binary64}

theorem significand_lt (x : Binary64) : x.significand < 2 ^ 53 := by
  have := x.fraction_lt
  unfold significand
  split <;> omega

theorem significand_pos (hx : x.isZero = false) : 0 < x.significand := by
  simp only [isZero, rank, beq_eq_false_iff_ne] at hx
  unfold significand
  split <;> omega

theorem scale_ge (x : Binary64) : -1074 ≤ x.scale := by
  unfold scale
  omega

/-- The rank in terms of significand and scale. -/
theorem rank_eq (x : Binary64) : x.rank = (x.scale + 1074).toNat * 2 ^ 52 + x.significand := by
  unfold rank scale significand
  split <;> omega

/-- The gap from a number down to the end of its interval, in its unit. -/
def lowerGap (x : Binary64) : ℚ := if x.fraction = 0 ∧ 1 < x.exponent then 1 / 4 else 1 / 2

theorem lowerGap_pos (x : Binary64) : 0 < x.lowerGap := by
  unfold lowerGap
  split <;> norm_num

theorem lowerGap_le_half (x : Binary64) : x.lowerGap ≤ 1 / 2 := by
  unfold lowerGap
  split <;> norm_num

theorem interval_unit (x : Binary64) : (2 : ℚ) ^ x.interval.scale = 2 ^ x.scale / 4 := by
  rw [interval, zpow_sub₀ (by norm_num)]
  norm_num

theorem low_interval (hx : x.isZero = false) :
    (x.interval.low : ℚ) * 2 ^ x.interval.scale = (x.significand - x.lowerGap) * 2 ^ x.scale := by
  have pos := significand_pos hx
  rw [interval_unit]
  simp only [interval, lowerGap]
  split
  · rw [Nat.cast_sub (by omega)]
    push_cast
    ring
  · rw [Nat.cast_sub (by omega)]
    push_cast
    ring

theorem high_interval (x : Binary64) :
    (x.interval.high : ℚ) * 2 ^ x.interval.scale = (x.significand + 1 / 2) * 2 ^ x.scale := by
  rw [interval_unit]
  simp only [interval]
  push_cast
  ring

/-- The ends of the interval, in the unit of the number. -/
theorem mem_interval_unit {v : ℚ} (hx : x.isZero = false) (h : x.interval.Mem v) :
    (x.significand : ℚ) - x.lowerGap ≤ v / 2 ^ x.scale ∧ v / 2 ^ x.scale ≤ x.significand + 1 / 2 ∧
      (x.significand % 2 = 1 → (x.significand : ℚ) - x.lowerGap < v / 2 ^ x.scale ∧
        v / 2 ^ x.scale < x.significand + 1 / 2) := by
  have unit := two_zpow_pos x.scale
  have ends := h.le
  rw [low_interval hx, high_interval] at ends
  refine ⟨(le_div_iff₀ unit).2 ends.1, (div_le_iff₀ unit).2 ends.2, fun odd => ?_⟩
  have ends := h.lt (by simp [interval, odd])
  rw [low_interval hx, high_interval] at ends
  exact ⟨(lt_div_iff₀ unit).2 ends.1, (div_lt_iff₀ unit).2 ends.2⟩

/-- Ratios in the interval that keep 53 bits, or need not, round in the unit of the number. -/
theorem nearestRank_of_unit {n d : Nat} (hn : 0 < n) (hd : 0 < d)
    (bits : x.scale = -1074 ∨ (2 : ℚ) ^ 52 ≤ n / d / 2 ^ x.scale)
    (rounds : RoundsTo ((n : ℚ) / d / 2 ^ x.scale) x.significand) : nearestRank n d = x.rank := by
  have unit := two_zpow_pos x.scale
  have hm : (x.significand : ℚ) + 1 ≤ 2 ^ 53 := by exact_mod_cast x.significand_lt
  rw [rank_eq]
  apply nearestRank_eq hn hd x.scale_ge
  · have := rounds.2.1
    rw [zpow_add₀ (by norm_num), mul_comm, ← div_lt_iff₀ unit]
    norm_num at hm ⊢
    linarith
  · refine bits.imp_right fun h => ?_
    rw [zpow_add₀ (by norm_num), mul_comm]
    exact (le_div_iff₀ unit).1 h
  · exact rounds

/-- Just below a power of two the unit is half as large; the significand then rounds up to the
power, which has the same rank in both units. -/
theorem nearestRank_below_power {n d : Nat} (hn : 0 < n) (hd : 0 < d)
    (power : x.fraction = 0 ∧ 1 < x.exponent)
    (low : (x.significand : ℚ) - 1 / 4 ≤ n / d / 2 ^ x.scale)
    (below : (n : ℚ) / d / 2 ^ x.scale < 2 ^ 52) : nearestRank n d = x.rank := by
  have unit := two_zpow_pos x.scale
  have hm : x.significand = 2 ^ 52 := by
    unfold significand
    split <;> omega
  have scale_gt : -1074 < x.scale := by
    unfold scale
    omega
  have half : (n : ℚ) / d / 2 ^ (x.scale - 1) = 2 * (n / d / 2 ^ x.scale) := by
    rw [zpow_sub₀ (by norm_num), zpow_one]
    field_simp
  have scale_eq : x.scale = x.scale - 1 + 1 := by omega
  have rank : nearestRank n d = (x.scale - 1 + 1074).toNat * 2 ^ 52 + 2 ^ 53 := by
    apply nearestRank_eq hn hd (by omega)
    · rw [show x.scale - 1 + 53 = x.scale + 52 by omega, zpow_add₀ (by norm_num), mul_comm,
        ← div_lt_iff₀ unit]
      exact below
    · right
      rw [show x.scale - 1 + 52 = x.scale + 51 by omega, zpow_add₀ (by norm_num), mul_comm,
        ← le_div_iff₀ unit]
      rw [hm] at low
      norm_num at low ⊢
      linarith
    · rw [half]
      rw [hm] at low
      refine ⟨?_, ?_, fun odd => absurd odd (by norm_num)⟩
      · norm_num at low ⊢
        linarith
      · norm_num at below ⊢
        linarith
  rw [rank, rank_eq, hm]
  omega

theorem nearestRank_of_mem {n d : Nat} (hx : x.isZero = false) (hn : 0 < n) (hd : 0 < d)
    (h : x.interval.Mem ((n : ℚ) / d)) : nearestRank n d = x.rank := by
  obtain ⟨low, high, odd⟩ := mem_interval_unit hx h
  by_cases power : x.fraction = 0 ∧ 1 < x.exponent
  · have gap : x.lowerGap = 1 / 4 := if_pos power
    rw [gap] at low odd
    by_cases above : (2 : ℚ) ^ 52 ≤ n / d / 2 ^ x.scale
    · refine nearestRank_of_unit hn hd (.inr above) ⟨?_, high, fun h => ?_⟩
      · linarith
      · exact ⟨by linarith [(odd h).1], (odd h).2⟩
    · exact nearestRank_below_power hn hd power low (not_le.1 above)
  · have gap : x.lowerGap = 1 / 2 := if_neg power
    rw [gap] at low odd
    refine nearestRank_of_unit hn hd ?_ ⟨low, high, odd⟩
    by_cases small : x.exponent ≤ 1
    · left
      unfold scale
      omega
    · right
      have hm : 2 ^ 52 + 1 ≤ x.significand := by
        unfold significand
        split <;> omega
      have hm' : (2 : ℚ) ^ 52 + 1 ≤ x.significand := by exact_mod_cast hm
      linarith

/-- **Every ratio in the interval of a finite number is rounded to that number.** -/
theorem nearest_eq_of_mem {n d : Nat} (finite : x.isFinite = true) (hx : x.isZero = false)
    (hn : 0 < n) (hd : 0 < d) (h : x.interval.Mem ((n : ℚ) / d)) :
    nearest x.negative n d = x := by
  have hr := (isFinite_iff_rank_lt x).1 finite
  have rank := nearestRank_of_mem hx hn hd h
  simp only [nearest, hn.ne', if_false, rank, hr, dif_pos, ofRank_rank]

end Binary64

end MetadataFilter
