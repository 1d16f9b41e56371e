/-!
# Digits and integers

The power operations of the definitions on numbers are `Nat.pow` and `Int.pow`, also where a library
offers other instances with the same values.

Hexadecimal digits are ten digits and six letters, in either case. An integer as text is one or more
digits in a base, with or without a sign in front; `signedIn?` and `unsigned?` take what fits 64
bits.
-/

namespace MetadataFilter

namespace Power

scoped instance (priority := high) natural : Pow Nat Nat := ⟨Nat.pow⟩

scoped instance (priority := high) integer : Pow Int Nat := ⟨Int.pow⟩

end Power

open scoped Power

def Text.hexDigit? (c : Char) : Option Nat :=
  if c.isDigit then some (c.toNat - '0'.toNat)
  else if 'a' ≤ c ∧ c ≤ 'f' then some (c.toNat - 'a'.toNat + 10)
  else if 'A' ≤ c ∧ c ≤ 'F' then some (c.toNat - 'A'.toNat + 10)
  else none

/-- The value of a digit in a base of at most sixteen. -/
def digitIn? (base : Nat) (c : Char) : Option Nat := (Text.hexDigit? c).filter (· < base)

/-- The number that one or more digits in a base denote. -/
def digitsIn? (base : Nat) (text : List Char) : Option Nat :=
  if text.isEmpty then none
  else text.foldl
    (fun n c => match n, digitIn? base c with
      | some n, some d => some (n * base + d)
      | _, _ => none)
    (some 0)

/-- The largest unsigned number of 64 bits. -/
def maxUnsigned : Nat := 2 ^ (64 : Nat) - 1

/-- An unsigned number of 64 bits, with an optional plus sign. -/
def unsigned? (text : List Char) : Option Nat :=
  let unsigned := match text with
    | '+' :: rest => rest
    | rest => rest
  (digitsIn? 10 unsigned).filter (· ≤ maxUnsigned)

/-- A signed number of 64 bits in a base, with an optional sign. -/
def signedIn? (base : Nat) (text : List Char) : Option Int :=
  let value := match text with
    | '-' :: rest => (digitsIn? base rest).map fun n => -(n : Int)
    | '+' :: rest => (digitsIn? base rest).map fun n => (n : Int)
    | rest => (digitsIn? base rest).map fun n => (n : Int)
  value.filter fun n => -2 ^ (63 : Nat) ≤ n && n < 2 ^ (63 : Nat)

def signed? (text : List Char) : Option Int := signedIn? 10 text

end MetadataFilter
