import MetadataFilter.Number.Integer
import MetadataFilter.Yaml.Edition
import MetadataFilter.Yaml.Value

/-!
# The values of scalars, edition 1.1

A plain scalar without a tag is null, a boolean, an integer, a floating-point number or a text, in
this order. The tags of the core schema convert; any other scalar is a text.

Integers have an optional sign and digits in base ten, or in base sixteen, eight or two behind `0x`,
`0o` or `0b`. Digits that start with a superfluous zero are a text. An integer of up to 128 bits
that does not fit 64 has no value, and larger ones are no integers.
-/

namespace MetadataFilter.Yaml

open scoped Power

/-- A text without one sign. -/
def dropSign : List Char → List Char
  | '+' :: rest | '-' :: rest => rest
  | text => text

/-- Two or more decimal digits of which the first is a zero, with an optional sign. -/
def hasLeadingZero (text : List Char) : Bool :=
  match dropSign text with
  | '0' :: rest => !rest.isEmpty && rest.all Char.isDigit
  | _ => false

/-- The magnitude that digits denote, behind the mark of their base if it is not ten. -/
def magnitude? : List Char → Option Nat
  | '0' :: 'x' :: rest => digitsIn? 16 rest
  | '0' :: 'o' :: rest => digitsIn? 8 rest
  | '0' :: 'b' :: rest => digitsIn? 2 rest
  | text => digitsIn? 10 text

def integer? (text : List Char) : Option Int :=
  if hasLeadingZero text then none
  else match text with
    | '-' :: rest =>
      (magnitude? rest).bind fun n => if n ≤ 2 ^ (127 : Nat) then some (-(n : Int)) else none
    | _ =>
      let unsigned := match text with
        | '+' :: rest => rest
        | rest => rest
      (magnitude? unsigned).bind fun n => if n < 2 ^ (128 : Nat) then some (n : Int) else none

/-- An integer as a number, if it fits 64 bits. -/
def Number.ofInt? (n : Int) : Option Number :=
  if h : -2 ^ (63 : Nat) ≤ n ∧ n < 2 ^ (64 : Nat) then some (.integer n h) else none

/-- The floating-point number that a text spells: an infinity or a NaN with a point in front, or a
finite decimal number. -/
def float? (text : String) : Option Binary64 :=
  if [".inf", ".Inf", ".INF", "+.inf", "+.Inf", "+.INF"].contains text then some (.infinity false)
  else if ["-.inf", "-.Inf", "-.INF"].contains text then some (.infinity true)
  else if [".nan", ".NaN", ".NAN"].contains text then some .nan
  else (Binary64.ofText? text.toList).filter Binary64.isFinite

/-- The value of a plain scalar. An integer that does not fit has none. -/
def plainValue? (text : String) : Option Yaml :=
  if text.isEmpty || isNullWord text then some .null
  else match boolWord? text with
  | some b => some (.bool b)
  | none =>
    match integer? text.toList with
    | some n => (Number.ofInt? n).map .number
    | none =>
      if hasLeadingZero text.toList then some (.string text)
      else match float? text with
        | some x => some (.number (.float x))
        | none => some (.string text)

/-- The value of a scalar without a tag, or behind an application tag. -/
def scalarValue? (plain : Bool) (text : String) : Option Yaml :=
  if plain then plainValue? text else some (.string text)

/-- The value of a scalar with a tag of the core schema, or with one that says nothing here. -/
def coreValue? (tag text : String) : Option Yaml :=
  if tag = "tag:yaml.org,2002:bool" then (boolWord? text).map .bool
  else if tag = "tag:yaml.org,2002:int" then
    ((integer? text.toList).bind Number.ofInt?).map .number
  else if tag = "tag:yaml.org,2002:float" then (float? text).map fun x => .number (.float x)
  else if tag = "tag:yaml.org,2002:null" then if isNullWord text then some .null else none
  else some (.string text)

end MetadataFilter.Yaml
