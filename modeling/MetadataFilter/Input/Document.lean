import MetadataFilter.Input.Path
import MetadataFilter.Json.Reader
import MetadataFilter.Text.Blank
import MetadataFilter.Yaml.Resolve
import MetadataFilter.Yaml.ToJson

/-!
# Reading filter documents

`readDocument` reads a document in a format, blanks around it apart. A document of blanks is the
empty object. The format of a document in a file is known by the extension of its path, in any case
of letters. Any other document has the automatic format: a document that is JSON is read as JSON and
any other as YAML.
-/

namespace MetadataFilter

inductive DocumentFormat
  | json
  | yaml
  /-- JSON, or YAML if it is not JSON. -/
  | auto
  deriving DecidableEq

def DocumentFormat.ofPath (path : String) : DocumentFormat :=
  match (FilePath.extension? path).map fun name => name.toList.map Char.toLower with
  | none => .auto
  | some name =>
    if name = "json".toList then .json
    else if name = "yaml".toList ∨ name = "yml".toList then .yaml
    else .auto

inductive DocumentError
  | notJson
  | notYaml
  | notJsonNorYaml
  | notFinite (value : Binary64)
  | notRepresentable
  deriving DecidableEq

def DocumentError.message : DocumentError → String
  | .notJson => "Input: Filter is not valid JSON"
  | .notYaml => "Input: Filter is not valid YAML"
  | .notJsonNorYaml => "Input: Filter is neither JSON nor YAML"
  | .notFinite x => "Input: YAML value " ++ Yaml.notFiniteText x ++ " is not a finite number"
  | .notRepresentable => "Input: Filter cannot be represented as JSON"

def DocumentError.ofYaml : Yaml.JsonError → DocumentError
  | .notFinite x => .notFinite x
  | .notRepresentable => .notRepresentable

/-- Reads YAML as JSON; a text that is not YAML is the given error. -/
def readYaml (unreadable : DocumentError) (text : List Char) : Except DocumentError Json :=
  match Yaml.ofText? text with
  | none => .error unreadable
  | some value => value.toJson.mapError DocumentError.ofYaml

def readDocument (format : DocumentFormat) (text : List Char) : Except DocumentError Json :=
  let text := Text.trim text
  if text.isEmpty then .ok (.object [])
  else match format with
    | .json =>
      match Json.ofText? text with
      | some value => .ok value
      | none => .error .notJson
    | .yaml => readYaml .notYaml text
    | .auto =>
      match Json.ofText? text with
      | some value => .ok value
      | none => readYaml .notJsonNorYaml text

end MetadataFilter
