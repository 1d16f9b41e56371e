import MetadataFilter.Json.Value
import MetadataFilter.Number.Layout

/-!
# Writing JSON

Compact JSON: no blanks, the members of an object in the order of the value. A string escapes the
quote, the backslash and the control characters below U+0020, and nothing else. A floating-point
number is written with its shortest digits, positionally from 10 ^ -5 up to below 10 ^ 16 and
otherwise scientifically, so that it always shows a point or an exponent and reads back as the same
number.
-/

namespace MetadataFilter.Json

def hexDigit (n : Nat) : Char := Nat.digitChar (n % 16)

def escapeChar (c : Char) : List Char :=
  if c = '"' then ['\\', '"']
  else if c = '\\' then ['\\', '\\']
  else if c = '\x08' then ['\\', 'b']
  else if c = '\t' then ['\\', 't']
  else if c = '\n' then ['\\', 'n']
  else if c = '\x0c' then ['\\', 'f']
  else if c = '\r' then ['\\', 'r']
  else if c.toNat < 0x20 then ['\\', 'u', '0', '0', hexDigit (c.toNat / 16), hexDigit c.toNat]
  else [c]

def quote (text : List Char) : List Char := '"' :: text.flatMap escapeChar ++ ['"']

/-- The layout of a decimal `coefficient * 10 ^ power`, by the power of ten of its first digit. -/
def decimalText (coefficient : Nat) (power : Int) : List Char :=
  let leading := leadingPower coefficient power
  if -5 ≤ leading ∧ leading < 16 then positionalText coefficient power
  else scientificText coefficient power

/-- The text of a finite floating-point number. -/
def floatText (x : Binary64) : List Char :=
  let shortest := x.shortest .even
  signText x.negative ++ decimalText shortest.1 shortest.2

def Number.text : Number → List Char
  | .integer n _ => intText n
  | .float x _ => floatText x

def commaSeparated : List (List Char) → List Char
  | [] => []
  | [text] => text
  | text :: rest => text ++ ',' :: commaSeparated rest

mutual

def write : Json → List Char
  | .null => "null".toList
  | .bool b => (if b then "true" else "false").toList
  | .number n => n.text
  | .string s => quote s.toList
  | .array items => '[' :: commaSeparated (writeItems items) ++ [']']
  | .object members => '\x7b' :: commaSeparated (writeMembers members) ++ ['\x7d']

def writeItems : List Json → List (List Char)
  | [] => []
  | item :: rest => write item :: writeItems rest

def writeMembers : List (String × Json) → List (List Char)
  | [] => []
  | (key, value) :: rest => (quote key.toList ++ ':' :: write value) :: writeMembers rest

end

def toText (value : Json) : String := String.ofList value.write

end MetadataFilter.Json
