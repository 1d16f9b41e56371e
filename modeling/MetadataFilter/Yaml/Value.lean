import MetadataFilter.Number.Decimal

/-!
# YAML values

What a YAML document means: null, booleans, numbers, texts, sequences, mappings from any values to
values, and values with an application tag. A mapping has its entries in the order of the document.

`Yaml.same` is the equality that finds repeated keys. It does not look at the order of entries, and
it compares floating-point numbers by value: the two zeros are the same, and so are all NaNs.
-/

namespace MetadataFilter

open scoped Power

/-- A number of a YAML document: an integer that fits 64 bits, signed or not, or any floating-point
number. -/
inductive Yaml.Number
  | integer (value : Int) (inRange : -2 ^ (63 : Nat) ≤ value ∧ value < 2 ^ (64 : Nat))
  | float (value : Binary64)

inductive Yaml
  | null
  | bool (value : Bool)
  | number (value : Yaml.Number)
  | string (value : String)
  | sequence (items : List Yaml)
  | mapping (entries : List (Yaml × Yaml))
  | tagged (tag : String) (value : Yaml)
  deriving Inhabited

namespace Yaml

/-- Equality of numbers as keys. -/
def Number.same : Number → Number → Bool
  | .integer a _, .integer b _ => a == b
  | .float a, .float b => a == b || (a.isNaN && b.isNaN) || (a.isZero && b.isZero)
  | _, _ => false

mutual

def same : Yaml → Yaml → Bool
  | .null, .null => true
  | .bool a, .bool b => a == b
  | .number a, .number b => a.same b
  | .string a, .string b => a == b
  | .sequence a, .sequence b => sameItems a b
  | .mapping a, .mapping b => a.length == b.length && allEntriesIn a b
  | .tagged s a, .tagged t b => s == t && same a b
  | _, _ => false

def sameItems : List Yaml → List Yaml → Bool
  | [], [] => true
  | a :: as, b :: bs => same a b && sameItems as bs
  | _, _ => false

/-- Whether each entry has the same value in the other entries. -/
def allEntriesIn : List (Yaml × Yaml) → List (Yaml × Yaml) → Bool
  | [], _ => true
  | (key, value) :: rest, others =>
    others.any (fun (otherKey, other) => same key otherKey && same value other)
      && allEntriesIn rest others

end

end Yaml

end MetadataFilter
