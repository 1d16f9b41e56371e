import MetadataFilter.Json.Numeral

/-!
# JSON texts before they are values

`Json.Written` is a JSON text with its punctuation and blanks removed and nothing decided yet:
numbers are the numerals as spelled, and objects hold every member in the order of the text.
`Written.value?` decides: numerals get their values, members are brought into the order of their
keys, and of equal keys the last one counts. The only reason for it to fail is a numeral too large
for a floating-point number.
-/

namespace MetadataFilter.Json

/-- A JSON value as its text spells it. -/
inductive Written
  | null
  | bool (value : Bool)
  | number (numeral : Numeral)
  | string (value : String)
  | array (items : List Written)
  | object (members : List (String × Written))

namespace Written

mutual

/-- The value that the text stands for. -/
def value? : Written → Option Json
  | .null => some .null
  | .bool b => some (.bool b)
  | .number n => n.number?.map .number
  | .string s => some (.string s)
  | .array items => (items? items).map .array
  | .object members => (members? members).map ofMembers

def items? : List Written → Option (List Json)
  | [] => some []
  | item :: rest =>
    match item.value?, items? rest with
    | some value, some values => some (value :: values)
    | _, _ => none

def members? : List (String × Written) → Option (List (String × Json))
  | [] => some []
  | (key, item) :: rest =>
    match item.value?, members? rest with
    | some value, some values => some ((key, value) :: values)
    | _, _ => none

end

end Written

end MetadataFilter.Json
