import MetadataFilter.Proofs.Number.Nearest

/-!
# Digits of the shortest decimal

The search for the shortest decimal goes from large powers of ten to small ones and stops at the
first that has a multiple in the interval. So the multiple is no multiple of ten: the next larger
power would have had one as well. A number with a fractional part has no integer in its interval, so
the power is negative, and the last digit stands behind the point (`Binary64.shortest_digits`).
-/

namespace MetadataFilter.Binary64

namespace Interval

variable {i : Interval} {power : Int} {tie : Tie}

/-- An interval holds what lies between two of its members. -/
theorem Mem.between {u v w : ℚ} (hu : i.Mem u) (hw : i.Mem w) (low : u ≤ v) (high : v ≤ w) :
    i.Mem v := by
  unfold Mem at *
  split
  · next closed =>
    rw [if_pos closed] at hu hw
    exact ⟨hu.1.trans low, high.trans hw.2⟩
  · next opened =>
    rw [if_neg opened] at hu hw
    exact ⟨hu.1.trans_le low, high.trans_lt hw.2⟩

/-- The centre lies between the two multiples around it. -/
theorem below_bounds (i : Interval) (power : Int) :
    decimalValue (i.below power) power ≤ i.centre * 2 ^ i.scale ∧
      i.centre * 2 ^ i.scale ≤ decimalValue (i.below power + 1) power := by
  have grid : 0 < 10 ^ power.toNat * 2 ^ (-i.scale).toNat := by positivity
  rw [← gridAtMost_iff, ← gridAtLeast_iff, gridAtMost, gridAtLeast, decide_eq_true_eq,
    decide_eq_true_eq, below]
  exact ⟨Nat.div_mul_le_self _ _, ((Nat.div_lt_iff_lt_mul grid).1 (Nat.lt_succ_self _)).le⟩

theorem decimalValue_mono {m n : Nat} (h : m ≤ n) (power : Int) :
    decimalValue m power ≤ decimalValue n power :=
  mul_le_mul_of_nonneg_right (Nat.cast_le.2 h) (ten_zpow_pos power).le

/-- A power of ten with a multiple in the interval is a hit. -/
theorem onGrid?_isSome (tie : Tie) {multiple : Nat} (centre : i.Mem (i.centre * 2 ^ i.scale))
    (mem : i.Mem (decimalValue multiple power)) : (i.onGrid? tie power).isSome = true := by
  obtain ⟨low, high⟩ := i.below_bounds power
  have neighbour : i.holds power (i.below power) = true ∨
      i.holds power (i.below power + 1) = true := by
    rw [holds_iff, holds_iff]
    rcases Nat.lt_or_ge (i.below power) multiple with above | below
    · exact .inr (centre.between mem high (decimalValue_mono above power))
    · exact .inl (mem.between centre (decimalValue_mono below power) low)
  unfold onGrid?
  cases hb : i.holds power (i.below power) <;> cases ha : i.holds power (i.below power + 1) <;>
    simp only [hb, ha]
  · simp [hb, ha] at neighbour
  · rfl
  · rfl
  · split_ifs
    · rfl
    · rfl
    · cases tie <;> rfl

/-- The first hit is where the search starts, or the power before it is none. -/
theorem firstOnGrid?_first {steps : Nat} {start : Int} {c : Nat} {p : Int}
    (found : i.firstOnGrid? tie steps start = some (c, p)) :
    p = start ∨ i.onGrid? tie (p + 1) = none := by
  induction steps generalizing start with
  | zero => cases found
  | succ steps ih =>
    rw [firstOnGrid?] at found
    split at found
    · cases found
      exact .inl rfl
    · next miss =>
      rcases ih found with rfl | before
      · rw [sub_add_cancel]
        exact .inr miss
      · exact .inr before

/-- A hit within reach is found, if none before it. -/
theorem firstOnGrid?_isSome {steps : Nat} {start : Int} (down : Nat) (near : down < steps)
    (hit : (i.onGrid? tie (start - down)).isSome = true) :
    (i.firstOnGrid? tie steps start).isSome = true := by
  induction steps generalizing start down with
  | zero => cases near
  | succ steps ih =>
    rw [firstOnGrid?]
    split
    · rfl
    · next miss =>
      cases down with
      | zero =>
        rw [Nat.cast_zero, sub_zero, miss] at hit
        cases hit
      | succ down =>
        apply ih down (Nat.lt_of_succ_lt_succ near)
        rwa [Nat.cast_succ, add_comm, ← sub_sub] at hit

end Interval

variable {x : Binary64}

theorem centre_interval (x : Binary64) :
    (x.interval.centre : ℚ) * 2 ^ x.interval.scale = x.magnitude := by
  rw [interval_unit, magnitude]
  simp only [interval]
  push_cast
  ring

theorem centre_mem (nonzero : x.isZero = false) :
    x.interval.Mem (x.interval.centre * 2 ^ x.interval.scale) := by
  rw [centre_interval]
  exact mem_interval_self nonzero

/-- The search finds a decimal, at the latest the exact one. -/
theorem firstOnGrid?_interval (tie : Tie) (nonzero : x.isZero = false) :
    x.interval.firstOnGrid? tie 1384 309 = some (x.shortest tie) := by
  have itself : x.interval.Mem (decimalValue x.exactDecimal.1 (min x.scale 0)) := by
    rw [show min x.scale 0 = x.exactDecimal.2 from rfl, x.exactDecimal_value]
    exact mem_interval_self nonzero
  have hit := Interval.onGrid?_isSome tie (centre_mem nonzero) itself
  have least := x.scale_ge
  have found : (x.interval.firstOnGrid? tie 1384 309).isSome = true := by
    apply Interval.firstOnGrid?_isSome (309 - min x.scale 0).toNat (by omega)
    rwa [show (309 : Int) - ((309 - min x.scale 0).toNat : Nat) = min x.scale 0 by omega]
  obtain ⟨decimal, found⟩ := Option.isSome_iff_exists.1 found
  rw [shortest, if_neg (by simp [nonzero]), found, Option.getD_some]

/-- A trailing zero would have been a hit with the next larger power of ten. -/
theorem shortest_mod_ten (tie : Tie) (nonzero : x.isZero = false)
    (power : (x.shortest tie).2 < 309) : (x.shortest tie).1 % 10 ≠ 0 := by
  intro zero
  have mem := shortest_mem tie nonzero
  have found := firstOnGrid?_interval tie nonzero
  generalize x.shortest tie = decimal at power zero mem found
  obtain ⟨c, p⟩ := decimal
  simp only at power zero mem
  have larger : decimalValue (c / 10) (p + 1) = decimalValue c p := by
    obtain ⟨k, rfl⟩ := Nat.dvd_of_mod_eq_zero zero
    rw [Nat.mul_div_cancel_left k (by norm_num), decimalValue, decimalValue,
      zpow_add₀ (by norm_num), zpow_one]
    push_cast
    ring
  rw [← larger] at mem
  have hit := Interval.onGrid?_isSome tie (centre_mem nonzero) mem
  rcases Interval.firstOnGrid?_first found with start | miss
  · omega
  · rw [miss] at hit
    cases hit

/-! ## Numbers with a fractional part -/

theorem scale_neg_of_not_isWhole (finite : x.isFinite = true) (fractional : x.isWhole = false) :
    x.scale < 0 := by
  by_contra whole
  have none : (-x.scale).toNat = 0 := by omega
  rw [isWhole, finite, none, pow_zero, Nat.mod_one] at fractional
  cases fractional

theorem isZero_of_not_isWhole (finite : x.isFinite = true) (fractional : x.isWhole = false) :
    x.isZero = false := by
  by_contra zero
  rw [isWhole_of_isZero finite (by simpa using zero)] at fractional
  cases fractional

/-- The units below one make up a power of two, so an integer is a number of units. -/
theorem natCast_eq_units (n : Nat) (scale : x.scale < 0) :
    (n : ℚ) = (n * 2 ^ (-x.scale).toNat : Nat) * 2 ^ x.scale := by
  rw [zpow_eq_div 2 x.scale, Int.toNat_of_nonpos scale.le]
  push_cast
  field_simp

/-- An integer number of units that is as large as the number makes the number whole. -/
theorem isWhole_of_units {n : Nat} (finite : x.isFinite = true)
    (same : n * 2 ^ (-x.scale).toNat = x.significand) : x.isWhole = true := by
  rw [isWhole, finite, ← same, Nat.mul_mod_left]
  rfl

/-- No integer is as near to a number with a fractional part as the ends of its interval. -/
theorem not_mem_interval_natCast (finite : x.isFinite = true) (fractional : x.isWhole = false)
    (n : Nat) : ¬x.interval.Mem n := by
  intro mem
  have nonzero := isZero_of_not_isWhole finite fractional
  obtain ⟨low, high⟩ := mem.le
  have unit := two_zpow_pos x.scale
  rw [natCast_eq_units n (scale_neg_of_not_isWhole finite fractional)] at low high
  rw [low_interval nonzero, mul_le_mul_iff_of_pos_right unit] at low
  rw [high_interval, mul_le_mul_iff_of_pos_right unit] at high
  have gap := x.lowerGap_le_half
  -- both are numbers of units, so they are less than one apart only if they are equal
  have above : n * 2 ^ (-x.scale).toNat < x.significand + 1 := by
    rw [← Nat.cast_lt (α := ℚ), Nat.cast_succ]
    linarith
  have below : x.significand < n * 2 ^ (-x.scale).toNat + 1 := by
    rw [← Nat.cast_lt (α := ℚ), Nat.cast_succ]
    linarith
  have same : n * 2 ^ (-x.scale).toNat = x.significand := by omega
  rw [isWhole_of_units finite same] at fractional
  cases fractional

/-- A number is whole exactly if it stands for an integer. -/
theorem isWhole_iff (finite : x.isFinite = true) :
    x.isWhole = true ↔ ∃ n : Nat, x.magnitude = n := by
  constructor
  · intro whole
    exact ⟨x.wholeMagnitude, (wholeMagnitude_value whole).symm⟩
  · rintro ⟨n, value⟩
    by_contra fractional
    rw [Bool.not_eq_true] at fractional
    apply not_mem_interval_natCast finite fractional n
    rw [← value]
    exact mem_interval_self (isZero_of_not_isWhole finite fractional)

/-- **The shortest decimal of a number with a fractional part** has digits behind the point, the
last of them not a zero. -/
theorem shortest_digits (tie : Tie) (finite : x.isFinite = true) (fractional : x.isWhole = false) :
    (x.shortest tie).2 < 0 ∧ (x.shortest tie).1 % 10 ≠ 0 := by
  have nonzero := isZero_of_not_isWhole finite fractional
  have negative : (x.shortest tie).2 < 0 := by
    by_contra integer
    obtain ⟨zeros, power⟩ := Int.eq_ofNat_of_zero_le (not_lt.1 integer)
    have mem := shortest_mem tie nonzero
    rw [power] at mem
    apply not_mem_interval_natCast finite fractional ((x.shortest tie).1 * 10 ^ zeros)
    simpa [decimalValue] using mem
  exact ⟨negative, shortest_mod_ten tie nonzero (by omega)⟩

end MetadataFilter.Binary64
