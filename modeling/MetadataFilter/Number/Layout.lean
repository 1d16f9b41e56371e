import MetadataFilter.Number.Shortest

/-!
# Laying out decimal digits

The text of an integer, and two layouts of a decimal `coefficient * 10 ^ power`: positional, with a
point and at least one digit on either side of it, and scientific, with one digit before the point
and a signed exponent.

A floating-point number in a fragment always has a point and never an exponent, so it cannot be
taken for an integer (`Fragment.floatText`).
-/

namespace MetadataFilter

def intText (n : Int) : List Char :=
  if n < 0 then '-' :: Nat.toDigits 10 n.natAbs else Nat.toDigits 10 n.natAbs

def signText (negative : Bool) : List Char := if negative then ['-'] else []

/-- Positional layout, without an exponent. -/
def positionalText (coefficient : Nat) (power : Int) : List Char :=
  let digits := Nat.toDigits 10 coefficient
  match power with
  | .ofNat zeros => digits ++ List.replicate zeros '0' ++ ".0".toList
  | .negSucc n =>
    let places := n + 1
    if places < digits.length then
      digits.take (digits.length - places) ++ '.' :: digits.drop (digits.length - places)
    else "0.".toList ++ List.replicate (places - digits.length) '0' ++ digits

/-- The power of ten of the first digit. -/
def leadingPower (coefficient : Nat) (power : Int) : Int :=
  power + (Nat.toDigits 10 coefficient).length - 1

/-- Scientific layout: no point after a single digit, and an exponent that always has a sign. -/
def scientificText (coefficient : Nat) (power : Int) : List Char :=
  let digits := Nat.toDigits 10 coefficient
  let mantissa := match digits with
    | first :: [] => [first]
    | first :: more => first :: '.' :: more
    | [] => []
  let exponent := leadingPower coefficient power
  mantissa ++ 'e' :: (if exponent < 0 then '-' else '+') :: Nat.toDigits 10 exponent.natAbs

/-- A number without a fractional part is written exactly, all digits of its integer value and then
`.0`; any other is written with its shortest digits, of two equally near decimals the larger
magnitude. The numbers that are not finite have words, which no checked filter contains. -/
def Fragment.floatText (x : Binary64) : List Char :=
  if x.isNaN then "NaN".toList
  else signText x.negative ++
    if x.isInfinite then "inf".toList
    else if x.isWhole then positionalText x.wholeMagnitude 0
    else
      let (coefficient, power) := x.shortest .up
      positionalText coefficient power

end MetadataFilter
