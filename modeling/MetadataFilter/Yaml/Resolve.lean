import MetadataFilter.Yaml.Document
import MetadataFilter.Yaml.Scalar.Resolve
import MetadataFilter.Yaml.Tokens.V11

/-!
# The value of a YAML document

`Yaml.ofText?` reads the text of one document in edition 1.1. It has no value if it cannot be read,
if an alias leads nowhere, back into itself or to too many copies, if a mapping repeats a key, or if
collections nest deeper than `maxNesting`.
-/

namespace MetadataFilter.Yaml

/-- How deep collections may nest, aliases followed. -/
def maxNesting : Nat := 128

mutual

/-- The size of a node in the text: one for each scalar and alias, two for each collection. -/
def Node.size : Node → Nat
  | .scalar _ _ _ => 1
  | .alias _ => 1
  | .sequence _ items => 2 + Node.sizeOfItems items
  | .mapping _ entries => 2 + Node.sizeOfEntries entries

def Node.sizeOfItems : List Node → Nat
  | [] => 0
  | item :: rest => item.size + Node.sizeOfItems rest

def Node.sizeOfEntries : List (Node × Node) → Nat
  | [] => 0
  | (key, value) :: rest => key.size + value.size + Node.sizeOfEntries rest

end

/-- The name of an application tag: what follows its exclamation mark, which may stand alone. -/
def applicationTag? (tag : Option Tag) : Option String :=
  match tag.map (·.text.toList) with
  | some ['!'] => some "!"
  | some ('!' :: name) => some (String.ofList name)
  | _ => none

/-- A value behind its application tag, if it has one. -/
def withTag (tag : Option Tag) (value : Yaml) : Yaml :=
  match applicationTag? tag with
  | some name => .tagged name value
  | none => value

/-- Whether no two entries have the same key. -/
def distinctKeys : List (Yaml × Yaml) → Bool
  | [] => true
  | (key, _) :: rest => !rest.any (fun (other, _) => key.same other) && distinctKeys rest

/-- The node that an alias leads to. Every alias that is followed takes one from the number that may
be. -/
def Document.follow (document : Document) : Node → StateT Nat Option Node
  | .alias n => do
    let remaining ← get
    if remaining = 0 then failure
    set (remaining - 1)
    let some node := document.anchored n | failure
    return node
  | node => return node

def Document.nodeValue (document : Document) (levels : Nat) (node : Node) :
    StateT Nat Option Yaml := do
  match ← document.follow node with
  | .scalar tag plain text =>
    let value := match tag with
      | none => scalarValue? plain text
      | some name =>
        if (applicationTag? tag).isSome then scalarValue? plain text else coreValue? name.text text
    let some value := value | failure
    return withTag tag value
  | .sequence tag items =>
    match levels with
    | 0 => failure
    | levels + 1 =>
      return withTag tag (.sequence (← items.mapM (document.nodeValue levels)))
  | .mapping tag entries =>
    match levels with
    | 0 => failure
    | levels + 1 => do
      let entries ← entries.mapM fun (key, value) => do
        return (← document.nodeValue levels key, ← document.nodeValue levels value)
      if distinctKeys entries then return withTag tag (.mapping entries) else failure
  | .alias _ => failure

/-- The value of a document. An alias may be followed a hundred times for each thing in the
document. -/
def Document.value? (document : Document) : Option Yaml :=
  ((document.nodeValue maxNesting document.root).run (100 * document.root.size)).map Prod.fst

def ofText? (text : List Char) : Option Yaml := do
  let tokens ← V11.tokenize? text
  let document ← Document.ofTokens? .v11 tokens
  document.value?

end MetadataFilter.Yaml
