import MetadataFilter.Number.Decimal

/-!
# JSON values

A JSON value with what a filter document needs to tell apart: integers and floating-point numbers
are different numbers, every number is finite, and the members of an object are in the order of
their keys (by code point), each key once. `insertEntry` keeps such a map of texts. `Json.ofMembers`
brings members into that order; of equal keys the last one counts.
-/

namespace MetadataFilter

open scoped Power

/-- Puts an entry in its place by key; an equal key gives way. -/
def insertEntry {α : Type} (key : String) (value : α) : List (String × α) → List (String × α)
  | [] => [(key, value)]
  | (other, old) :: rest =>
    if key < other then (key, value) :: (other, old) :: rest
    else if key = other then (key, value) :: rest
    else (other, old) :: insertEntry key value rest

/-- A number of a JSON document: an integer that fits 64 bits, signed or not, or a finite
floating-point number. -/
inductive Json.Number
  | integer (value : Int) (inRange : -2 ^ (63 : Nat) ≤ value ∧ value < 2 ^ (64 : Nat))
  | float (value : Binary64) (finite : value.isFinite = true)
  deriving DecidableEq

inductive Json
  | null
  | bool (value : Bool)
  | number (value : Json.Number)
  | string (value : String)
  | array (items : List Json)
  | object (members : List (String × Json))
  deriving Inhabited

namespace Json

/-- The kinds of values, as messages name them. -/
inductive Kind
  | null | boolean | number | string | list | object
  deriving DecidableEq

def Kind.name : Kind → String
  | .null => "null"
  | .boolean => "boolean"
  | .number => "number"
  | .string => "string"
  | .list => "list"
  | .object => "object"

def kind : Json → Kind
  | .null => .null
  | .bool _ => .boolean
  | .number _ => .number
  | .string _ => .string
  | .array _ => .list
  | .object _ => .object

/-- The members in the order of their keys; of equal keys the last one counts. -/
def sortMembers (members : List (String × Json)) : List (String × Json) :=
  members.foldl (fun sorted member => insertEntry member.1 member.2 sorted) []

def ofMembers (members : List (String × Json)) : Json := .object (sortMembers members)

/-- The JSON number of a floating-point number. There is none for an infinity or a NaN, which become
null. -/
def ofBinary64 (x : Binary64) : Json :=
  if h : x.isFinite = true then .number (.float x h) else .null

/-- The JSON number of a signed 64-bit integer. -/
def ofInt64 (n : Int64) : Json :=
  .number (.integer n.toInt ⟨n.le_toInt, Int.lt_trans n.toInt_lt (by decide)⟩)

end Json

end MetadataFilter
