import MetadataFilter.Settings.Path

/-!
# Settings in environment variables

A variable whose name starts with `GELFILTER_`, in any case of letters, has the rest of its name, in
lower case, as its key. Its value is a boolean, an integer, a floating-point number or a text, the
first of these that it spells.
-/

namespace MetadataFilter

def environmentMark : List Char := "gelfilter_".toList

def settingKey? (variableName : String) : Option String :=
  let name := variableName.toList.map Char.toLower
  if name.take environmentMark.length = environmentMark then
    some (String.ofList (name.drop environmentMark.length))
  else none

/-- The value that a variable spells. -/
def SettingValue.ofVariable (text : String) : SettingValue :=
  if SettingValue.lower text = "true" then .bool true
  else if SettingValue.lower text = "false" then .bool false
  else match signed? text.toList with
    | some n => .integer n
    | none =>
      match Binary64.ofText? text.toList with
      | some x => .float x
      | none => .text text

def SettingValues.ofEnvironment (environment : List (String × String)) : SettingValues :=
  environment.filterMap fun (name, text) =>
    (settingKey? name).map fun key => (key, SettingValue.ofVariable text)

end MetadataFilter
