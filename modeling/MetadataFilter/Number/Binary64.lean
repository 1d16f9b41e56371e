import MetadataFilter.Number.Integer

/-!
# Floating-point numbers in 64 bits

A number of the IEEE 754 format binary64 is kept as its three fields: sign, biased exponent and
fraction. Two numbers are equal exactly when all 64 bits are, so the two zeros differ.

* A finite number stands for `± significand * 2 ^ scale` (`Binary64.significand`, `Binary64.scale`).
* `Binary64.rank` counts the magnitudes from zero upwards, one by one: subnormal, normal and
  infinite magnitudes lie in one sequence, and `Binary64.ofRank` is its inverse (`rank_ofRank`,
  `ofRank_rank`).
-/

namespace MetadataFilter

open scoped Power

/-- A binary64 number: its sign, its biased exponent and its fraction. -/
structure Binary64 where
  negative : Bool
  exponent : Nat
  fraction : Nat
  exponent_lt : exponent < 2 ^ (11 : Nat)
  fraction_lt : fraction < 2 ^ (52 : Nat)
  deriving DecidableEq

namespace Binary64

/-- The number of magnitudes, infinity and the NaN patterns included, is `2 ^ 63`. -/
def rank (x : Binary64) : Nat := x.exponent * 2 ^ (52 : Nat) + x.fraction

theorem rank_lt (x : Binary64) : x.rank < 2 ^ (63 : Nat) := by
  have h := x.exponent_lt
  have h' := x.fraction_lt
  unfold rank
  omega

/-- The number of the given sign whose magnitude is the `rank`-th, counted from zero. -/
def ofRank (negative : Bool) (rank : Nat) (h : rank < 2 ^ (63 : Nat)) : Binary64 where
  negative := negative
  exponent := rank / 2 ^ (52 : Nat)
  fraction := rank % 2 ^ (52 : Nat)
  exponent_lt := by omega
  fraction_lt := by omega

@[simp] theorem rank_ofRank (negative : Bool) (r : Nat) (h : r < 2 ^ (63 : Nat)) :
    (ofRank negative r h).rank = r := by
  simp only [rank, ofRank]
  omega

@[simp] theorem negative_ofRank (negative : Bool) (r : Nat) (h : r < 2 ^ (63 : Nat)) :
    (ofRank negative r h).negative = negative := rfl

@[simp] theorem ofRank_rank (x : Binary64) : ofRank x.negative x.rank x.rank_lt = x := by
  obtain ⟨s, e, f, he, hf⟩ := x
  simp only [ofRank, rank, mk.injEq, true_and]
  omega

/-- The rank of the infinities. All smaller ranks are finite. -/
def infiniteRank : Nat := 2047 * 2 ^ (52 : Nat)

def zero (negative : Bool) : Binary64 := ofRank negative 0 (by decide)

def infinity (negative : Bool) : Binary64 := ofRank negative infiniteRank (by decide)

/-- The quiet NaN that stands for all of them. -/
def nan : Binary64 := ofRank false (infiniteRank + 2 ^ (51 : Nat)) (by decide)

/-- Infinities and NaNs carry the largest exponent, and nothing else does. -/
def isFinite (x : Binary64) : Bool := x.exponent != 2047

def isInfinite (x : Binary64) : Bool := x.exponent == 2047 && x.fraction == 0

def isNaN (x : Binary64) : Bool := x.exponent == 2047 && x.fraction != 0

def isZero (x : Binary64) : Bool := x.rank == 0

theorem isFinite_iff_rank_lt (x : Binary64) : x.isFinite = true ↔ x.rank < infiniteRank := by
  have h := x.exponent_lt
  have h' := x.fraction_lt
  simp only [isFinite, bne_iff_ne, ne_eq, rank, infiniteRank]
  omega

/-- The integer significand: an implicit leading bit above the fraction of a normal number. -/
def significand (x : Binary64) : Nat :=
  if x.exponent = 0 then x.fraction else 2 ^ (52 : Nat) + x.fraction

/-- The power of two that the significand counts. -/
def scale (x : Binary64) : Int := (max x.exponent 1 : Nat) - 1075

/-- A finite number without a fractional part: its significand is a multiple of the unit. -/
def isWhole (x : Binary64) : Bool :=
  x.isFinite && x.significand % 2 ^ (-x.scale).toNat == 0

/-- The integer magnitude of a number without a fractional part. -/
def wholeMagnitude (x : Binary64) : Nat :=
  x.significand * 2 ^ x.scale.toNat / 2 ^ (-x.scale).toNat

def toBits (x : Binary64) : Nat := (if x.negative then 2 ^ (63 : Nat) else 0) + x.rank

def ofBits (bits : UInt64) : Binary64 :=
  ofRank (2 ^ (63 : Nat) ≤ bits.toNat) (bits.toNat % 2 ^ (63 : Nat)) (Nat.mod_lt _ (by decide))

theorem toBits_ofBits (bits : UInt64) : (ofBits bits).toBits = bits.toNat := by
  have h := bits.toNat_lt
  simp only [toBits, ofBits, negative_ofRank, rank_ofRank, decide_eq_true_eq]
  split <;> omega

end Binary64

end MetadataFilter
