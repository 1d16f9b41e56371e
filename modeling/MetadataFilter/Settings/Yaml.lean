import MetadataFilter.Settings.Path
import MetadataFilter.Yaml.Document
import MetadataFilter.Yaml.Edition
import MetadataFilter.Yaml.Tokens.V12

/-!
# Settings in YAML

The settings of a YAML text are the entries of its root, a table. A text without a document has
none. All of the text has to be in order, also where no setting stands: keys are scalars, each once,
and every value is one.

A `SettingNode` is a node before it is known whether it stands as a key or as a value. One that has
a tag it does not fit, and an alias inside the node that it names, are missing. As values they are
null; as keys they are passed over, and what follows takes the place of the key.
-/

namespace MetadataFilter

/-- A scalar of a settings file. A number that is no integer is kept as it is spelled. -/
inductive SettingScalar
  | null
  | bool (value : Bool)
  | integer (value : Int)
  | real (spelling : String)
  | text (value : String)
  deriving DecidableEq

inductive SettingNode
  | missing
  | scalar (value : SettingScalar)
  | list (items : List SettingNode)
  | table (entries : List (SettingNode × SettingNode))

/-! ## Scalars -/

/-- The integer that a plain scalar spells, in base ten, sixteen or eight. -/
def plainInteger? (text : List Char) : Option Int :=
  match text with
  | '0' :: 'x' :: rest => signedIn? 16 rest
  | '0' :: 'o' :: rest => signedIn? 8 rest
  | '+' :: rest => signed? rest
  | rest => signed? rest

/-- The words for numbers that are not finite. -/
def notFiniteWords : List String :=
  [".inf", ".Inf", ".INF", "+.inf", "+.Inf", "+.INF", "-.inf", "-.Inf", "-.INF",
    ".nan", ".NaN", ".NAN"]

/-- Whether a plain scalar is a number: such a word, or a floating-point number with a digit. -/
def isReal (text : String) : Bool :=
  notFiniteWords.contains text
    || (text.toList.any Char.isDigit && (Binary64.ofText? text.toList).isSome)

def SettingScalar.ofPlain (text : String) : SettingScalar :=
  match plainInteger? text.toList, Yaml.boolWord? text with
  | some n, _ => .integer n
  | none, some b => .bool b
  | none, none =>
    if text.isEmpty || Yaml.isNullWord text then .null
    else if isReal text then .real text
    else .text text

/-- The value of a plain scalar with a tag of the core schema, if it fits the tag. -/
def SettingScalar.ofCore? (name text : String) : Option SettingScalar :=
  match name with
  | "bool" => (Yaml.boolWord? text).map .bool
  | "int" => (signed? text.toList).map .integer
  | "float" => if isReal text then some (.real text) else none
  | "null" => if Yaml.isNullWord text then some .null else none
  | _ => some (.text text)

def SettingNode.ofScalar (tag : Option Yaml.Tag) (plain : Bool) (text : String) : SettingNode :=
  if !plain then .scalar (.text text)
  else match tag with
  | none => .scalar (.ofPlain text)
  | some tag =>
    if tag.base = "tag:yaml.org,2002:" then
      match SettingScalar.ofCore? tag.suffix text with
      | some value => .scalar value
      | none => .missing
    else .scalar (.text text)

/-! ## Collections -/

namespace SettingNode

/-- The entries of a table, from its keys and values in turn and a key that waits for its value. A
missing key is passed over, and a last key without a value is left out. -/
def entriesOf : (waiting : Option SettingNode) → List SettingNode → List (SettingNode × SettingNode)
  | _, [] => []
  | none, .missing :: rest => entriesOf none rest
  | none, key :: rest => entriesOf (some key) rest
  | some key, value :: rest => (key, value) :: entriesOf none rest

def scalar? : SettingNode → Option SettingScalar
  | .scalar value => some value
  | _ => none

/-- The table of keys and values in turn, if no scalar is a key twice. -/
def tableOf? (nodes : List SettingNode) : Option SettingNode :=
  let entries := entriesOf none nodes
  if (entries.filterMap (·.1.scalar?)).Nodup then some (.table entries) else none

mutual

def ofNode? : Yaml.Node → Option SettingNode
  | .scalar tag plain text => some (.ofScalar tag plain text)
  | .sequence _ items => (ofItems? items).map .list
  | .mapping _ entries => (ofEntries? entries).bind tableOf?
  | .alias _ => some .missing

def ofItems? : List Yaml.Node → Option (List SettingNode)
  | [] => some []
  | item :: rest =>
    match ofNode? item, ofItems? rest with
    | some item, some items => some (item :: items)
    | _, _ => none

def ofEntries? : List (Yaml.Node × Yaml.Node) → Option (List SettingNode)
  | [] => some []
  | (key, value) :: rest =>
    match ofNode? key, ofNode? value, ofEntries? rest with
    | some key, some value, some nodes => some (key :: value :: nodes)
    | _, _, _ => none

end

/-- The name of an entry with this key. -/
def name? : SettingNode → Option String
  | .scalar (.text name) | .scalar (.real name) => some name
  | .scalar (.integer n) => some (toString n)
  | .scalar (.bool b) => some (if b then "true" else "false")
  | _ => none

mutual

def value? : SettingNode → Option SettingValue
  | .missing | .scalar .null => some .null
  | .scalar (.bool b) => some (.bool b)
  | .scalar (.integer n) => some (.integer n)
  | .scalar (.real spelling) => (Binary64.ofText? spelling.toList).map .float
  | .scalar (.text s) => some (.text s)
  | .list items => if haveValues items then some .list else none
  | .table entries => (entryValues? entries).map fun values => .tableOf (values.map Prod.fst)

def haveValues : List SettingNode → Bool
  | [] => true
  | item :: rest => item.value?.isSome && haveValues rest

def entryValues? : List (SettingNode × SettingNode) → Option (List (String × SettingValue))
  | [] => some []
  | (key, value) :: rest =>
    match key.name?, value.value?, entryValues? rest with
    | some name, some value, some values => some ((name, value) :: values)
    | _, _, _ => none

end

end SettingNode

def SettingValues.ofYaml? (text : List Char) : Option SettingValues := do
  let tokens ← Yaml.V12.tokenize? text
  if tokens.all (· == .documentEnd) then return []
  let document ← Yaml.Document.ofTokens? .v12 tokens
  match ← SettingNode.ofNode? document.root with
  | .table entries => SettingNode.entryValues? entries
  | _ => none

end MetadataFilter
