import MetadataFilter.Number.Binary64

/-!
# Decimal numbers and the binary64 number nearest to them

* `Nat.toDigits 10` writes a natural number and `Nat.ofDigitChars 10` reads one.
* `roundRatio` rounds a ratio of natural numbers to the nearest integer, a half to the even one.
* `Binary64.nearest` is the binary64 number nearest to a ratio: of two equally near ones the even
  one, and infinity from half a unit above the largest finite number.
* `Decimal.nearest` is the number that a decimal text stands for.
-/

namespace MetadataFilter

open scoped Power

/-- The ratio `n / d` rounded to the nearest integer; a half goes to the even neighbour. -/
def roundRatio (n d : Nat) : Nat :=
  if 2 * (n % d) < d then n / d
  else if d < 2 * (n % d) then n / d + 1
  else n / d + n / d % 2

namespace Binary64

/-- Whether `2 ^ k ≤ n / d`. -/
def powerAtMost (k : Int) (n d : Nat) : Bool := d * 2 ^ k.toNat ≤ n * 2 ^ (-k).toNat

/-- The largest `k` with `2 ^ k ≤ n / d`, for positive `n` and `d`. -/
def floorLog (n d : Nat) : Int :=
  let k : Int := (Nat.log2 n : Int) - Nat.log2 d
  if powerAtMost k n d then k else k - 1

/-- The rank of the magnitude nearest to `n / d`. The unit is `2 ^ scale` with 53 bits of
significand, or the smallest unit; the ranks above a power of two follow those below it, so a
significand that rounds up to the next power needs no case of its own. -/
def nearestRank (n d : Nat) : Nat :=
  let scale := max (floorLog n d - 52) (-1074)
  (scale + 1074).toNat * 2 ^ (52 : Nat) + roundRatio (n * 2 ^ (-scale).toNat) (d * 2 ^ scale.toNat)

/-- The binary64 number nearest to `± n / d`. -/
def nearest (negative : Bool) (n d : Nat) : Binary64 :=
  if n = 0 then zero negative
  else if h : nearestRank n d < infiniteRank then
    ofRank negative (nearestRank n d) (Nat.lt_trans h (by decide))
  else infinity negative

end Binary64

/-- A decimal number `± coefficient * 10 ^ exponent`. -/
structure Decimal where
  negative : Bool
  coefficient : Nat
  exponent : Int
  deriving DecidableEq

namespace Decimal

/-- The decimal number written as `whole.fraction` times ten to the power `exponent`. -/
def ofDigits (negative : Bool) (whole fraction : List Char) (exponent : Int) : Decimal where
  negative := negative
  coefficient := Nat.ofDigitChars 10 (whole ++ fraction) 0
  exponent := exponent - fraction.length

/-- The binary64 number nearest to a decimal number. A number of 10 ^ 400 or more is infinite and
one below 10 ^ -400 is zero, so no larger power of ten is ever computed. -/
def nearest (x : Decimal) : Binary64 :=
  let size := x.exponent + (Nat.toDigits 10 x.coefficient).length
  if x.coefficient = 0 then .zero x.negative
  else if 400 < size then .infinity x.negative
  else if size < -400 then .zero x.negative
  else .nearest x.negative (x.coefficient * 10 ^ x.exponent.toNat) (10 ^ (-x.exponent).toNat)

end Decimal

/-- Reads `digits`, `digits.digits` or `.digits`, with an optional exponent; at least one digit
stands before the exponent, and an exponent has one too. The sign is read by the caller. -/
def Decimal.ofText? (negative : Bool) (text : List Char) : Option Decimal :=
  let whole := text.takeWhile Char.isDigit
  let afterWhole := text.dropWhile Char.isDigit
  let (fraction, afterFraction) := match afterWhole with
    | '.' :: rest => (rest.takeWhile Char.isDigit, rest.dropWhile Char.isDigit)
    | rest => ([], rest)
  if whole.isEmpty && fraction.isEmpty then none
  else match afterFraction with
    | [] => some (ofDigits negative whole fraction 0)
    | mark :: rest =>
      if mark = 'e' ∨ mark = 'E' then
        let (down, digits) := match rest with
          | '-' :: digits => (true, digits)
          | '+' :: digits => (false, digits)
          | digits => (false, digits)
        if digits.isEmpty || !digits.all Char.isDigit then none
        else
          let power : Int := Nat.ofDigitChars 10 digits 0
          some (ofDigits negative whole fraction (if down then -power else power))
      else none

/-- Reads a floating-point number with an optional sign: a decimal number, or in any case of letters
`inf`, `infinity` or `nan`. -/
def Binary64.ofText? (text : List Char) : Option Binary64 :=
  let (negative, unsigned) := match text with
    | '-' :: rest => (true, rest)
    | '+' :: rest => (false, rest)
    | rest => (false, rest)
  let word := unsigned.map Char.toLower
  if word = "inf".toList || word = "infinity".toList then some (.infinity negative)
  else if word = "nan".toList then some .nan
  else (Decimal.ofText? negative unsigned).map Decimal.nearest

end MetadataFilter
