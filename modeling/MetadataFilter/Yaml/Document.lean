import MetadataFilter.Yaml.Node
import MetadataFilter.Yaml.Token

/-!
# From tokens to the document

`Document.ofTokens?` builds the tree of the one document that a text may hold.

In 1.1 an anchor takes the number of distinct anchor names before it. A name that is given again
thus shares its number with the next new name, and an alias leads to the last node with its number.
In 1.2 an alias stands for the last node that was anchored with its name and is complete; the only
aliases left are those inside the node that they name. Edition 1.2 also takes a colon without a key
before it for an entry with an absent key.
-/

namespace MetadataFilter.Yaml

/-- The tag handles that are always there. -/
def Composer.knownHandles : List (String × String) := [("!", "!"), ("!!", "tag:yaml.org,2002:")]

structure Composer where
  edition : Edition
  tokens : List Token
  /-- The tag handles and what they stand for. -/
  handles : List (String × String) := Composer.knownHandles
  /-- The numbers of the anchor names. -/
  numbers : List (String × Nat) := []
  /-- For each anchor the number and the count of anchors before it, the last anchor first. -/
  anchors : List (Nat × Nat) := []
  /-- The nodes of the anchors that are complete, by the count of anchors before them. -/
  nodes : List (Nat × Node) := []

abbrev Compose := StateT Composer Option

namespace Compose

def peek : Compose (Option Token) := return (← get).tokens.head?

def advance : Compose Unit := modify fun c => { c with tokens := c.tokens.drop 1 }

/-- Whether the next token is one of these, or there is none. -/
def atOneOf (tokens : List Token) : Compose Bool := return (← peek).all tokens.contains

/-- Whether the next token is this one; it is taken then. -/
def accept (token : Token) : Compose Bool := do
  if (← peek) == some token then
    advance
    return true
  else return false

/-- What a tag stands for. -/
def resolveTag (handle suffix : String) : Compose Tag := do
  if handle.isEmpty then return ⟨"", suffix⟩
  let some (_, uri) := (← get).handles.find? (·.1 == handle) | failure
  return ⟨uri, suffix⟩

/-- An anchor and a tag before a node, in either order. -/
def properties : Compose (Option String × Option Tag) := do
  match ← peek with
  | some (.anchor name) =>
    advance
    match ← peek with
    | some (.tag handle suffix) =>
      advance
      return (some name, some (← resolveTag handle suffix))
    | _ => return (some name, none)
  | some (.tag handle suffix) =>
    advance
    match ← peek with
    | some (.anchor name) =>
      advance
      return (some name, some (← resolveTag handle suffix))
    | _ => return (none, some (← resolveTag handle suffix))
  | _ => return (none, none)

/-- Gives the next anchor its number, and returns the count of anchors before it. -/
def declareAnchor (name : String) : Compose Nat := do
  let c ← get
  let count := c.anchors.length
  let number := match c.edition with
    | .v11 => c.numbers.length
    | .v12 => count
  set { c with
    numbers := (name, number) :: c.numbers.filter (·.1 != name)
    anchors := (number, count) :: c.anchors }
  return count

/-- Remembers the node of an anchor. -/
def defineAnchor (count : Nat) (node : Node) : Compose Unit :=
  modify fun c => { c with nodes := (count, node) :: c.nodes }

def aliasNode (name : String) : Compose Node := do
  let c ← get
  let some (_, number) := c.numbers.find? (·.1 == name) | failure
  match c.edition with
  | .v11 => return .alias number
  | .v12 => return (c.nodes.lookup number).getD (.alias number)

/-- A node of which only an anchor or a tag is there, if one is. -/
def bareNode (anchor : Option String) (tag : Option Tag) : Compose Node :=
  if anchor.isSome || tag.isSome then return .scalar tag true "" else failure

/-- Whether an entry without a key starts here. -/
def atKeylessEntry : Compose Bool := do
  return (← get).edition == .v12 && (← peek) == some .value

mutual

/-- A node. Block collections are for places outside brackets, items without indentation for the
keys and values of block mappings. Nothing nests deeper than there are tokens, which bounds
`steps`. -/
def node (steps : Nat) (block indentless : Bool) : Compose Node :=
  match steps with
  | 0 => failure
  | steps + 1 => do
    match ← peek with
    | some (.alias name) =>
      advance
      aliasNode name
    | _ =>
      let (anchor, tag) ← properties
      let count ← anchor.mapM declareAnchor
      let content ←
        match ← peek with
        | some (.scalar plain text) =>
          advance
          pure (.scalar tag plain text)
        | some .flowSequence =>
          advance
          Node.sequence tag <$> flowItems steps true
        | some .flowMapping =>
          advance
          Node.mapping tag <$> flowEntries steps true
        | some .item =>
          if indentless then Node.sequence tag <$> indentlessItems steps else bareNode anchor tag
        | some .blockSequence =>
          if block then
            advance
            Node.sequence tag <$> blockItems steps
          else bareNode anchor tag
        | some .blockMapping =>
          if block then
            advance
            Node.mapping tag <$> blockEntries steps
          else bareNode anchor tag
        | _ => bareNode anchor tag
      if let some count := count then defineAnchor count content
      return content

/-- A node that is absent before one of the given tokens. -/
def nodeUnless (steps : Nat) (block indentless : Bool) (ends : List Token) : Compose Node :=
  match steps with
  | 0 => failure
  | steps + 1 => do
    if ← atOneOf ends then return .absent else node steps block indentless

def blockItems (steps : Nat) : Compose (List Node) :=
  match steps with
  | 0 => failure
  | steps + 1 => do
    if ← accept .item then
      let item ← nodeUnless steps true false [.item, .blockEnd]
      return item :: (← blockItems steps)
    else if ← accept .blockEnd then return []
    else failure

/-- The items of a block sequence at the column of its key. -/
def indentlessItems (steps : Nat) : Compose (List Node) :=
  match steps with
  | 0 => failure
  | steps + 1 => do
    if ← accept .item then
      let item ← nodeUnless steps true false [.item, .key, .value, .blockEnd]
      return item :: (← indentlessItems steps)
    else return []

/-- The value of an entry, which is absent if there is no colon. -/
def entryValue (steps : Nat) (block : Bool) (ends : List Token) : Compose Node :=
  match steps with
  | 0 => failure
  | steps + 1 => do
    if ← accept .value then nodeUnless steps block block ends else return .absent

def blockEntries (steps : Nat) : Compose (List (Node × Node)) :=
  match steps with
  | 0 => failure
  | steps + 1 => do
    if ← accept .key then
      let key ← nodeUnless steps true true [.key, .value, .blockEnd]
      let value ← entryValue steps true [.key, .value, .blockEnd]
      return (key, value) :: (← blockEntries steps)
    else if ← atKeylessEntry then
      let value ← entryValue steps true [.key, .value, .blockEnd]
      return (.absent, value) :: (← blockEntries steps)
    else if ← accept .blockEnd then return []
    else failure

/-- The items of a sequence in brackets, up to its end. An item with a key is a mapping of one
entry; if that key is absent, the token in its place is passed over. -/
def flowItems (steps : Nat) (first : Bool) : Compose (List Node) :=
  match steps with
  | 0 => failure
  | steps + 1 => do
    if ← accept .flowSequenceEnd then return []
    if !first then
      if !(← accept .comma) then failure
    if ← accept .flowSequenceEnd then return []
    if ← accept .key then
      let key ←
        if ← atOneOf [.value, .comma, .flowSequenceEnd] then
          advance
          pure .absent
        else node steps false false
      let value ← entryValue steps false [.comma, .flowSequenceEnd]
      return .mapping none [(key, value)] :: (← flowItems steps false)
    else
      let item ← node steps false false
      return item :: (← flowItems steps false)

/-- The entries of a mapping in brackets, up to its end. A node without a key token is a key without
a value. -/
def flowEntries (steps : Nat) (first : Bool) : Compose (List (Node × Node)) :=
  match steps with
  | 0 => failure
  | steps + 1 => do
    if ← accept .flowMappingEnd then return []
    if !first then
      if !(← accept .comma) then failure
    if ← accept .flowMappingEnd then return []
    if ← accept .key then
      let key ← nodeUnless steps false false [.value, .comma, .flowMappingEnd]
      let value ← entryValue steps false [.comma, .flowMappingEnd]
      return (key, value) :: (← flowEntries steps false)
    else if ← atKeylessEntry then
      let value ← entryValue steps false [.comma, .flowMappingEnd]
      return (.absent, value) :: (← flowEntries steps false)
    else
      let key ← node steps false false
      return (key, .absent) :: (← flowEntries steps false)

end

/-- Takes the handle of a directive. In 1.1 it joins those given before, each once; in 1.2 it takes
their place. -/
def declareHandle (given : List String) (handle uri : String) : Compose Unit := do
  match (← get).edition with
  | .v11 =>
    if given.contains handle then failure
    modify fun c => { c with handles := (handle, uri) :: c.handles }
  | .v12 => modify fun c => { c with handles := (handle, uri) :: Composer.knownHandles }

/-- Takes the version. Edition 1.1 takes 1.1 and 1.2; edition 1.2 takes any, and forgets the handles
given before. -/
def declareVersion (major minor : Nat) : Compose Unit := do
  match (← get).edition with
  | .v11 => if major != 1 || (minor != 1 && minor != 2) then failure
  | .v12 => modify fun c => { c with handles := Composer.knownHandles }

/-- The directives before a document: the version, once, and tag handles. Handles given here come
before the ones that are always there. -/
def directives : (steps : Nat) → (versioned : Bool) → (given : List String) → Compose Unit
  | 0, _, _ => failure
  | steps + 1, versioned, given => do
    match ← peek with
    | some (.version major minor) =>
      if versioned then failure
      declareVersion major minor
      advance
      directives steps true given
    | some (.tagHandle handle uri) =>
      declareHandle given handle uri
      advance
      directives steps versioned (handle :: given)
    | _ => return ()

/-- Past the ends of documents that were not there, which 1.2 allows. -/
def skipEnds : Compose Unit := do
  if (← get).edition == .v12 then
    modify fun c => { c with tokens := c.tokens.dropWhile (· == .documentEnd) }

/-- The root of the only document, up to the end of the tokens. -/
def document (steps : Nat) : Compose Node := do
  skipEnds
  let root ←
    match ← peek with
    | none => pure .absent
    | some .documentStart | some (.version _ _) | some (.tagHandle _ _) =>
      directives steps false []
      if !(← accept .documentStart) then failure
      match ← peek with
      | some (.version _ _) | some (.tagHandle _ _) => pure .absent
      | _ => nodeUnless steps true false [.documentStart, .documentEnd]
    | some _ => node steps true false
  if (← get).tokens.all (· == .documentEnd) then return root else failure

end Compose

def Document.ofTokens? (edition : Edition) (tokens : List Token) : Option Document := do
  let (root, c) ← (Compose.document (4 * tokens.length + 4)).run { edition, tokens }
  let anchored := fun number => do
    let (_, count) ← c.anchors.find? (·.1 == number)
    let (_, node) ← c.nodes.find? (·.1 == count)
    return node
  return ⟨root, anchored⟩

end MetadataFilter.Yaml
