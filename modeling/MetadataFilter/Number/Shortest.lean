import MetadataFilter.Number.Decimal

/-!
# The shortest decimal that reads back

Every finite binary64 number is the nearest one to an interval of decimals (`Interval`). The
shortest decimal of a number is the multiple of the largest power of ten that lies in its interval,
and of two such multiples the nearer one; a tie is settled by the caller's `Tie`. So no decimal with
fewer digits reads back as the same number.
-/

namespace MetadataFilter

open scoped Power

/-- Which of two equally near decimals is taken. -/
inductive Tie
  /-- The larger magnitude. -/
  | up
  /-- The one whose last digit is even. -/
  | even
  deriving DecidableEq

namespace Binary64

/-- The magnitudes that read as one finite number, counted in quarters of its unit: from `low` to
`high`, the ends included exactly when `closed`, with the number itself at `centre`. The gap below a
power of two is half as wide as the gap above it. -/
structure Interval where
  low : Nat
  centre : Nat
  high : Nat
  closed : Bool
  /-- A quarter of the unit is `2 ^ scale`. -/
  scale : Int

/-- The interval of a finite number other than zero. -/
def interval (x : Binary64) : Interval where
  low := 4 * x.significand - (if x.fraction = 0 ∧ 1 < x.exponent then 1 else 2)
  centre := 4 * x.significand
  high := 4 * x.significand + 2
  closed := x.significand % 2 == 0
  scale := x.scale - 2

/-- A multiple of a power of ten is at most `quarters * 2 ^ scale`; both sides are cleared of
negative powers. -/
def Interval.gridAtMost (i : Interval) (power : Int) (multiple quarters : Nat) : Bool :=
  multiple * (10 ^ power.toNat * 2 ^ (-i.scale).toNat)
    ≤ quarters * (2 ^ i.scale.toNat * 10 ^ (-power).toNat)

/-- The same comparison the other way round. -/
def Interval.gridAtLeast (i : Interval) (power : Int) (multiple quarters : Nat) : Bool :=
  quarters * (2 ^ i.scale.toNat * 10 ^ (-power).toNat)
    ≤ multiple * (10 ^ power.toNat * 2 ^ (-i.scale).toNat)

/-- Whether `multiple * 10 ^ power` lies in the interval. -/
def Interval.holds (i : Interval) (power : Int) (multiple : Nat) : Bool :=
  if i.closed then i.gridAtLeast power multiple i.low && i.gridAtMost power multiple i.high
  else !i.gridAtMost power multiple i.low && !i.gridAtLeast power multiple i.high

/-- The largest multiple of `10 ^ power` that is not above the centre. -/
def Interval.below (i : Interval) (power : Int) : Nat :=
  i.centre * (2 ^ i.scale.toNat * 10 ^ (-power).toNat)
    / (10 ^ power.toNat * 2 ^ (-i.scale).toNat)

/-- Of the two multiples of `10 ^ power` around the centre, the nearer one that lies in the
interval. -/
def Interval.onGrid? (i : Interval) (tie : Tie) (power : Int) : Option Nat :=
  let below := i.below power
  match i.holds power below, i.holds power (below + 1) with
  | false, false => none
  | true, false => some below
  | false, true => some (below + 1)
  | true, true =>
    -- The middle of the two multiples, against the centre.
    let belowNearer := !i.gridAtMost power (2 * below + 1) (2 * i.centre)
    let aboveNearer := !i.gridAtLeast power (2 * below + 1) (2 * i.centre)
    if belowNearer then some below
    else if aboveNearer then some (below + 1)
    else match tie with
      | .up => some (below + 1)
      | .even => some (below + below % 2)

/-- The first hit among the powers of ten from `power` downwards. -/
def Interval.firstOnGrid? (i : Interval) (tie : Tie) : Nat → Int → Option (Nat × Int)
  | 0, _ => none
  | steps + 1, power =>
    match i.onGrid? tie power with
    | some multiple => some (multiple, power)
    | none => i.firstOnGrid? tie steps (power - 1)

/-- The exact decimal value of a finite number, as a multiple of a power of ten. -/
def exactDecimal (x : Binary64) : Nat × Int :=
  (x.significand * 2 ^ x.scale.toNat * 5 ^ (-x.scale).toNat, min x.scale 0)

/-- The shortest decimal that reads back as `x`, as a multiple of a power of ten. All finite numbers
lie below 10 ^ 309, and each is a multiple of 10 ^ -1074. -/
def shortest (tie : Tie) (x : Binary64) : Nat × Int :=
  if x.isZero then (0, 0)
  else (x.interval.firstOnGrid? tie 1384 309).getD x.exactDecimal

end Binary64

end MetadataFilter
