import MetadataFilter.Input.Source
import MetadataFilter.Json.Reader
import MetadataFilter.Settings.Yaml

/-!
# Settings in files

A settings file is a table in YAML, the documented format, or an object in JSON, known by the
extension of its path. The settings library reads other formats by default (`.toml`, `.ini`, `.ron`,
`.json5`), which are not covered: such a file counts as one that cannot be read, whatever is in it,
and it is not looked for. A path where no file is leads to the file with one of the extensions that
are covered behind its name.

The text of a file is its bytes as UTF-8 where they are, with a replacement character for each byte
that is part of no character (`Text.lossyText`).
-/

namespace MetadataFilter

/-- The value of a JSON value. -/
def SettingValue.ofJson : Json → SettingValue
  | .null => .null
  | .bool b => .bool b
  | .number (.integer n _) => .integer n
  | .number (.float x _) => .float x
  | .string s => .text s
  | .array _ => .list
  | .object members => .tableOf (members.map Prod.fst)

def SettingValues.ofJson? (text : List Char) : Option SettingValues :=
  match Json.ofText? text with
  | some (.object members) =>
    some (members.map fun (name, value) => (name, SettingValue.ofJson value))
  | _ => none

namespace Text

/-- The character at the front, if there is one, and its number of bytes. -/
def firstCharacter? (bytes : List UInt8) : Option (Char × Nat) :=
  [1, 2, 3, 4].findSome? fun length =>
    match (String.fromUTF8? (bytes.take length).toByteArray).map String.toList with
    | some [c] => some (c, length)
    | _ => none

/-- The text of bytes, with a replacement character for each byte that is part of none. -/
def lossyText (bytes : List UInt8) : List Char :=
  match bytes with
  | [] => []
  | _ :: rest =>
    match firstCharacter? bytes with
    | some (c, length) => c :: lossyText (rest.drop (length - 1))
    | none => '\ufffd' :: lossyText rest
termination_by bytes.length

end Text

/-- The text of a settings file, without a byte order mark. -/
def settingsText (content : ByteArray) : List Char :=
  let text := match String.fromUTF8? content with
    | some text => text.toList
    | none => Text.lossyText content.toList
  match text with
  | '\ufeff' :: rest => rest
  | rest => rest

/-- Only YAML, the documented format, and JSON are covered; no other file is read. -/
def SettingValues.ofFile? (extension : Option String) (content : ByteArray) :
    Option SettingValues :=
  if extension = some "yaml" ∨ extension = some "yml" then ofYaml? (settingsText content)
  else if extension = some "json" then ofJson? (settingsText content)
  else none

/-- The paths where a settings file is looked for: the path itself, and its name with an
extension. -/
def settingsPaths (path : String) : List String :=
  path :: match FilePath.upToName? path with
    | some path => [path ++ ".json", path ++ ".yaml", path ++ ".yml"]
    | none => []

/-- The settings of the first of these files that is there. -/
def SettingValues.load? (host : Host) (path : String) : Option SettingValues :=
  match (settingsPaths path).find? fun path => (host.file? path).isSome with
  | none => none
  | some found => (host.file? found).bind (ofFile? (FilePath.extension? found))

end MetadataFilter
