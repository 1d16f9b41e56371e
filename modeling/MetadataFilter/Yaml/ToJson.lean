import MetadataFilter.Json.Value
import MetadataFilter.Yaml.Value

/-!
# YAML values as JSON

JSON has no infinities and no NaN, no keys but texts, and no tags. `Yaml.toJson` looks for a number
that is not finite first, in the order of the document and in values only, and names the first one;
only then is anything else refused. Otherwise the JSON value has the same shape.
-/

namespace MetadataFilter.Yaml

/-- Why a YAML value has no JSON value. -/
inductive JsonError
  | notFinite (value : Binary64)
  | notRepresentable
  deriving DecidableEq

/-- The text of a number that is not finite. -/
def notFiniteText (x : Binary64) : String :=
  if x.isNaN then ".nan" else if x.negative then "-.inf" else ".inf"

/-- The number itself, if it is not finite. -/
def Number.notFinite? : Number → Option Binary64
  | .integer _ _ => none
  | .float x => if x.isFinite then none else some x

mutual

def notFinite? : Yaml → Option Binary64
  | .number n => n.notFinite?
  | .sequence items => notFiniteIn? items
  | .mapping entries => notFiniteAmong? entries
  | .tagged _ value => value.notFinite?
  | _ => none

def notFiniteIn? : List Yaml → Option Binary64
  | [] => none
  | item :: rest => item.notFinite?.or (notFiniteIn? rest)

/-- Keys are not looked at. -/
def notFiniteAmong? : List (Yaml × Yaml) → Option Binary64
  | [] => none
  | (_, value) :: rest => value.notFinite?.or (notFiniteAmong? rest)

end

/-- The text of a key. A tag on it does not count. -/
def keyText? : Yaml → Option String
  | .string text => some text
  | .tagged _ value => value.keyText?
  | _ => none

def Number.toJson : Number → Json
  | .integer n h => .number (.integer n h)
  | .float x => .ofBinary64 x

mutual

/-- The JSON value of the same shape. -/
def toJson? : Yaml → Option Json
  | .null => some .null
  | .bool b => some (.bool b)
  | .number n => some n.toJson
  | .string s => some (.string s)
  | .sequence items => (toJsonItems? items).map .array
  | .mapping entries => (toJsonMembers? entries).map .ofMembers
  | .tagged _ _ => none

def toJsonItems? : List Yaml → Option (List Json)
  | [] => some []
  | item :: rest =>
    match item.toJson?, toJsonItems? rest with
    | some value, some values => some (value :: values)
    | _, _ => none

def toJsonMembers? : List (Yaml × Yaml) → Option (List (String × Json))
  | [] => some []
  | (key, value) :: rest =>
    match key.keyText?, value.toJson?, toJsonMembers? rest with
    | some key, some value, some values => some ((key, value) :: values)
    | _, _, _ => none

end

def toJson (value : Yaml) : Except JsonError Json :=
  match value.notFinite? with
  | some x => .error (.notFinite x)
  | none =>
    match value.toJson? with
    | some json => .ok json
    | none => .error .notRepresentable

end MetadataFilter.Yaml
