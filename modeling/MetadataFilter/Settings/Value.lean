import MetadataFilter.Number.Decimal
import MetadataFilter.Number.Integer

/-!
# Values of settings

A setting is read loosely: where a boolean or a number is asked for, the other kinds and some words
do too. `SettingValue.toBool?`, `SettingValue.toNat?` and `SettingValue.toLabel?` say how.
-/

namespace MetadataFilter

open scoped Power

/-- The value of a setting before it is known what is asked for. -/
inductive SettingValue
  | null
  | bool (value : Bool)
  | integer (value : Int)
  | float (value : Binary64)
  | text (value : String)
  /-- A list, whatever it holds: no setting is one. -/
  | list
  /-- A table. Only the names of its entries are looked at, each once. -/
  | table (names : List String)
  deriving DecidableEq

/-- The number rounded to a natural number, a half away from zero. Negative numbers and NaN give
zero, and what is too large for 64 bits gives the largest number. -/
def Binary64.toUnsigned (x : Binary64) : Nat :=
  if x.isNaN || x.negative then 0
  else if x.isInfinite then maxUnsigned
  else
    let unit := 2 ^ (-x.scale).toNat
    min maxUnsigned ((2 * (x.significand * 2 ^ x.scale.toNat) + unit) / (2 * unit))

namespace SettingValue

def trueWords : List String := ["true", "on", "yes"]

def falseWords : List String := ["false", "off", "no"]

def lower (text : String) : String := String.ofList (text.toList.map Char.toLower)

/-- The boolean that a value stands for: a number other than zero is true. -/
def toBool? : SettingValue → Option Bool
  | .bool b => some b
  | .integer n => some (n != 0)
  | .float x => some (!x.isZero)
  | .text s =>
    if lower s = "1" ∨ lower s ∈ trueWords then some true
    else if lower s = "0" ∨ lower s ∈ falseWords then some false
    else none
  | .null | .list | .table _ => none

/-- The natural number that a value stands for. -/
def toNat? : SettingValue → Option Nat
  | .bool b => some b.toNat
  | .integer n => if 0 ≤ n then some n.toNat else none
  | .float x => some x.toUnsigned
  | .text s =>
    if lower s ∈ trueWords then some 1
    else if lower s ∈ falseWords then some 0
    else unsigned? s.toList
  | .null | .list | .table _ => none

/-- The label that a value gives: a text, or the name of the only entry of a table. -/
def toLabel? : SettingValue → Option String
  | .text s => some s
  | .table [name] => some name
  | _ => none

/-- Adds names to those that are there, each once. -/
def addNames (names : List String) : List String → List String
  | [] => names
  | name :: rest => addNames (if name ∈ names then names else names ++ [name]) rest

def tableOf (names : List String) : SettingValue := .table (addNames [] names)

end SettingValue

end MetadataFilter
