import MetadataFilter.Json.Value

/-!
# JSON numerals

A numeral is a number as a JSON text spells it. `Numeral.ofText?` accepts exactly the grammar
`-? (0 | [1-9][0-9]*) (. [0-9]+)? ([eE] [+-]? [0-9]+)?`, and `Numeral.number?` gives the value: an
integer for a numeral without point and exponent that fits 64 bits, signed or not, and otherwise the
nearest floating-point number, if that is finite. The numeral `-0` is the floating-point zero with a
sign, which no integer can hold.
-/

namespace MetadataFilter.Json

open scoped Power

/-- A number as it is spelled. -/
structure Numeral where
  negative : Bool
  whole : List Char
  fraction : Option (List Char)
  exponent : Option Int
  deriving DecidableEq

namespace Numeral

/-- Neither point nor exponent. -/
def isInteger (n : Numeral) : Bool := n.fraction.isNone && n.exponent.isNone

/-- One digit, or several of which the first is not a zero. -/
def isWhole : List Char → Bool
  | [c] => c.isDigit
  | c :: rest => c.isDigit && c != '0' && rest.all Char.isDigit
  | [] => false

/-- At least one digit. -/
def isDigits (text : List Char) : Bool := !text.isEmpty && text.all Char.isDigit

/-- The value of an exponent after its mark. -/
def exponent? : List Char → Option Int
  | '-' :: digits => if isDigits digits then some (-(Nat.ofDigitChars 10 digits 0 : Int)) else none
  | '+' :: digits => if isDigits digits then some (Nat.ofDigitChars 10 digits 0 : Int) else none
  | digits => if isDigits digits then some (Nat.ofDigitChars 10 digits 0 : Int) else none

def isExponentMark (c : Char) : Bool := c == 'e' || c == 'E'

/-- The numeral without its sign. -/
def ofUnsigned? (negative : Bool) (text : List Char) : Option Numeral :=
  let mantissa := text.takeWhile (!isExponentMark ·)
  let whole := mantissa.takeWhile (· != '.')
  let fraction := match mantissa.dropWhile (· != '.') with
    | [] => some none
    | _ :: digits => if isDigits digits then some (some digits) else none
  let exponent := match text.dropWhile (!isExponentMark ·) with
    | [] => some none
    | _ :: power => (exponent? power).map some
  if isWhole whole then
    match fraction, exponent with
    | some fraction, some exponent => some ⟨negative, whole, fraction, exponent⟩
    | _, _ => none
  else none

/-- The numeral that a text spells. -/
def ofText? : List Char → Option Numeral
  | '-' :: text => ofUnsigned? true text
  | text => ofUnsigned? false text

/-- The integer that the digits before the point denote, with the sign. -/
def wholeValue (n : Numeral) : Int :=
  let magnitude : Int := Nat.ofDigitChars 10 n.whole 0
  if n.negative then -magnitude else magnitude

def decimal (n : Numeral) : Decimal :=
  .ofDigits n.negative n.whole (n.fraction.getD []) (n.exponent.getD 0)

/-- The nearest floating-point number, if it is finite. -/
def float? (n : Numeral) : Option Number :=
  let value := n.decimal.nearest
  if h : value.isFinite = true then some (.float value h) else none

def number? (n : Numeral) : Option Number :=
  if n.isInteger ∧ ¬(n.negative ∧ n.wholeValue = 0) then
    if h : -2 ^ (63 : Nat) ≤ n.wholeValue ∧ n.wholeValue < 2 ^ (64 : Nat) then
      some (.integer n.wholeValue h)
    else n.float?
  else n.float?

end Numeral

end MetadataFilter.Json
