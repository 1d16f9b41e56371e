import MetadataFilter.Settings.Value

/-!
# Keys of settings

A key names a setting, or a part of one: `mode.escaped` is an entry of the table `mode`, and
`mode[0]` an item of the list `mode`. `SettingValues.find?` is the value of a setting after all
values have been put where their keys lead, one after the other.
-/

namespace MetadataFilter

/-- A step to a part of a value: an entry of a table, or an item of a list. -/
inductive SettingStep
  | entry (name : String)
  | item
  deriving DecidableEq

/-- The name of a setting, and the steps to a part of it. -/
structure SettingPath where
  name : String
  steps : List SettingStep
  deriving DecidableEq

namespace SettingPath

/-- The characters of names in a path. -/
def isNameChar (c : Char) : Bool := c.isAlphanum || c == '_' || c == '-'

def isSpaceOrTab (c : Char) : Bool := c == ' ' || c == '\t'

/-- A signed number without a plus sign, with blanks around it. -/
def isIndex (text : List Char) : Bool :=
  let number := ((text.dropWhile isSpaceOrTab).reverse.dropWhile isSpaceOrTab).reverse
  (signed? number).isSome && number.head? != some '+'

/-- The steps that a text spells: names behind points, and indices in brackets. -/
def steps? (text : List Char) : Option (List SettingStep) :=
  match text with
  | [] => some []
  | '.' :: rest =>
    let name := rest.takeWhile isNameChar
    if name.isEmpty then none
    else (steps? (rest.drop name.length)).map (.entry (String.ofList name) :: ·)
  | '[' :: rest =>
    let index := rest.takeWhile (· != ']')
    if isIndex index ∧ index.length < rest.length then
      (steps? (rest.drop (index.length + 1))).map (.item :: ·)
    else none
  | _ => none
termination_by text.length
decreasing_by
  all_goals
    simp only [List.length_drop, List.length_cons]
    omega

/-- What a key leads to. A key that spells no path is the name of a setting. -/
def ofKey (key : String) : SettingPath :=
  let name := key.toList.takeWhile isNameChar
  match steps? (key.toList.drop name.length) with
  | some steps => if name.isEmpty then ⟨key, []⟩ else ⟨String.ofList name, steps⟩
  | none => ⟨key, []⟩

end SettingPath

namespace SettingValue

/-- The names of the entries of a value that may be there and may be a table. -/
def entryNames : Option SettingValue → List String
  | some (.table names) => names
  | _ => []

/-- The value of a setting after a value has been put where the steps lead. What is there gives way,
except that entries of tables join. -/
def put (current : Option SettingValue) : List SettingStep → SettingValue → SettingValue
  | .entry name :: _, _ => .table (addNames (entryNames current) [name])
  | .item :: _, _ => .list
  | [], .table names => .table (addNames (entryNames current) names)
  | [], value => value

end SettingValue

/-- Values and their keys, in the order in which they count. -/
abbrev SettingValues := List (String × SettingValue)

namespace SettingValues

/-- The value of a setting after one more value has been put where its key leads. -/
def putFor (name : String) (current : Option SettingValue) (entry : String × SettingValue) :
    Option SettingValue :=
  let path := SettingPath.ofKey entry.1
  if path.name = name then some (SettingValue.put current path.steps entry.2) else current

/-- The value of a setting. -/
def find? (values : SettingValues) (name : String) : Option SettingValue :=
  values.foldl (putFor name) none

/-- Values that follow others count on top of them. -/
theorem find?_append (values more : SettingValues) (name : String) :
    find? (values ++ more) name = more.foldl (putFor name) (values.find? name) :=
  List.foldl_append

end SettingValues

end MetadataFilter
