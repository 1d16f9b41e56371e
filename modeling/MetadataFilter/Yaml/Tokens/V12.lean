import MetadataFilter.Yaml.Directive
import MetadataFilter.Yaml.Scalar.Block
import MetadataFilter.Yaml.Scalar.Plain
import MetadataFilter.Yaml.Scalar.Quoted

/-!
# From text to tokens, edition 1.2

`tokenize?` reads a whole text into tokens. Besides the open block collections and the pending keys,
it remembers two more things. Behind an item's hyphen or a value's colon the content is indented by
one column more, although no collection is open there (`Indent`). And an entry in a sequence in
brackets may stand without braces, so such a sequence knows whether one is open in it.
-/

namespace MetadataFilter.Yaml.V12

/-- An indentation inside another one. -/
structure Indent where
  /-- The column of the indentation around it, or -1. -/
  outer : Int
  /-- Whether it is that of a block collection. -/
  isBlock : Bool

structure Tokenizer where
  cursor : Cursor .v12
  tokens : Array Token := #[]
  /-- The column of the innermost indentation, or -1. -/
  indent : Int := -1
  /-- The indentations, the innermost first. -/
  indents : List Indent := []
  /-- The pending keys, the innermost level of brackets first and outside all brackets last. -/
  keys : List (Option PendingKey) := [none]
  /-- Whether a key can start here. -/
  keyAllowed : Bool := true
  /-- For each open sequence in brackets, whether an entry without braces is open in it. -/
  sequences : List Bool := []
  /-- Whether the next colon belongs to a mapping that braces or a question mark started. -/
  mappingStarted : Bool := false
  /-- Where a colon needs no gap behind it. -/
  adjacentAt : Nat := 0

namespace Tokenizer

def inFlow (t : Tokenizer) : Bool := 1 < t.keys.length

def emit (t : Tokenizer) (token : Token) : Tokenizer := { t with tokens := t.tokens.push token }

/-- Puts a token before those from `position` on. -/
def emitAt (t : Tokenizer) (position : Nat) (token : Token) : Tokenizer :=
  { t with tokens := Token.insertAt t.tokens position token }

def allowKey (t : Tokenizer) (allowed : Bool) : Tokenizer := { t with keyAllowed := allowed }

def moveTo (t : Tokenizer) (cursor : Cursor .v12) : Tokenizer := { t with cursor := cursor }

/-! ## Indentation -/

def inBlock (t : Tokenizer) : Bool := t.indents.head?.any Indent.isBlock

/-- Indents the content of an item or value by one column more than the block collection it is
in. -/
def indentContent (t : Tokenizer) : Tokenizer :=
  if !t.inFlow && t.inBlock then
    { t with indent := t.indent + 1, indents := ⟨t.indent, false⟩ :: t.indents }
  else t

/-- Leaves the indentation of content, if it is the innermost. -/
def leaveContent (t : Tokenizer) : Tokenizer :=
  match t.indents with
  | ⟨outer, false⟩ :: more => { t with indent := outer, indents := more }
  | _ => t

/-- Opens a block collection at `column`, unless the innermost one is at that column or behind it.
Its token goes before those from `position` on. -/
def openBlock (t : Tokenizer) (column position : Nat) (token : Token) : Tokenizer :=
  if t.inFlow then t
  else
    let t := if t.indent ≤ column then t.leaveContent else t
    if t.indent < column then
      { t.emitAt position token with indent := column, indents := ⟨t.indent, true⟩ :: t.indents }
    else t

/-- Ends the indentations behind `column`, and the block collections with them. -/
def closeIndents (column indent : Int) (tokens : Array Token) : List Indent → Tokenizer → Tokenizer
  | [], t => { t with indent := indent, indents := [], tokens := tokens }
  | i :: more, t =>
    if column < indent then
      closeIndents column i.outer (if i.isBlock then tokens.push .blockEnd else tokens) more t
    else { t with indent := indent, indents := i :: more, tokens := tokens }

/-- Ends the block collections behind `column`. -/
def closeBlocks (t : Tokenizer) (column : Int) : Tokenizer :=
  if t.inFlow then t else closeIndents column t.indent t.tokens t.indents t

/-! ## Pending keys -/

/-- Gives up the pending key of this level, unless it has to be one. -/
def dropKey? (t : Tokenizer) : Option Tokenizer :=
  (PendingKey.dropFirst? t.keys).map fun keys => { t with keys := keys }

/-- Lets the node that starts here become a key, if one can stand here. -/
def saveKey (t : Tokenizer) : Tokenizer :=
  if t.keyAllowed then
    let c := t.cursor
    let required := !t.inFlow && t.indent == c.column && t.inBlock
    { t with keys := some ⟨t.tokens.size, required, c.index, c.line, c.column⟩ :: t.keys.drop 1 }
  else t

/-- Gives up the pending key that can no longer be one. Inside brackets keys may be of any
length. -/
def dropStaleKeys? (t : Tokenizer) : Option Tokenizer :=
  if t.inFlow then some t
  else (t.keys.mapM (PendingKey.dropStale? t.cursor)).map fun keys => { t with keys := keys }

/-! ## Gaps between tokens -/

/-- The place where the next token starts, past blanks, comments and line ends, and whether a key
can start there. A tab cannot stand before column `indent` of a line with content. -/
def nextToken? (inFlow : Bool) (indent : Int) (keyAllowed : Bool) (c : Cursor .v12) :
    Option (Cursor .v12 × Bool) :=
  let start := c.skipWhile (· == ' ')
  let place := (start.skipWhile isSpaceOrTab).skipComment
  if start.sees '\t' ∧ start.leading ∧ start.column < indent ∧ !place.atLineEnd then none
  else
    match _h : place.readBreak? with
    | some (_, after) => nextToken? inFlow indent (keyAllowed || !inFlow) after
    | none => some (place, keyAllowed)
termination_by c.rest.length
decreasing_by
  exact Nat.lt_of_lt_of_le (Cursor.length_readBreak?_lt _h)
    (Nat.le_trans (Cursor.length_skipComment_le _)
      (Nat.le_trans (Cursor.length_skipWhile_le _ _) (Cursor.length_skipWhile_le _ c)))

/-- Past spaces, comments and line ends. -/
def skipSpaces (c : Cursor .v12) : Cursor .v12 :=
  let place := (c.skipWhile (· == ' ')).skipComment
  match _h : place.readBreak? with
  | some (_, after) => skipSpaces after
  | none => place
termination_by c.rest.length
decreasing_by
  exact Nat.lt_of_lt_of_le (Cursor.length_readBreak?_lt _h)
    (Nat.le_trans (Cursor.length_skipComment_le _) (Cursor.length_skipWhile_le _ c))

/-! ## Brackets -/

/-- How many brackets may be open. -/
def maxLevel : Nat := 255

/-- Ends the entry without braces that is open in the innermost sequence in brackets. -/
def endEntry (t : Tokenizer) : Tokenizer :=
  match t.sequences with
  | true :: more =>
    { t.emit .flowMappingEnd with sequences := false :: more, mappingStarted := false }
  | _ => t

def openBracket? (t : Tokenizer) (token : Token) : Option Tokenizer := do
  let t := t.saveKey.indentContent
  let t := { t with keys := none :: t.keys }
  if maxLevel + 1 < t.keys.length then none
  let t := if token = .flowMapping then { t with mappingStarted := true }
    else { t with sequences := false :: t.sequences }
  let after ← (t.cursor.skip 1).skipInline?
  return ((t.allowKey true).emit token).moveTo after

def closeBracket? (t : Tokenizer) (token : Token) : Option Tokenizer := do
  let t ← t.dropKey?
  let t := if t.inFlow then { t with keys := t.keys.drop 1 } else t
  let t :=
    if token = .flowSequenceEnd then { t.endEntry with sequences := t.sequences.drop 1 } else t
  let after ← (t.cursor.skip 1).skipInline?
  let t := if t.inFlow then { t with adjacentAt := after.index } else t
  return ((t.allowKey false).emit token).moveTo after

def comma? (t : Tokenizer) : Option Tokenizer := do
  let t ← t.dropKey?
  let after ← (t.cursor.skip 1).skipInline?
  return ((t.allowKey true).endEntry.emit .comma).moveTo after

/-! ## Collections -/

/-- The hyphen of an item. Between it and another one there are no tabs. -/
def item? (t : Tokenizer) : Option Tokenizer := do
  if t.inFlow || !t.keyAllowed then none
  let t := t.openBlock t.cursor.column t.tokens.size .blockSequence
  let start := t.cursor.skip 1
  let after ← start.skipInline?
  let tabbed := (start.takeWhile isSpaceOrTab).1.contains '\t'
  if tabbed && after.sees '-' && after.gapAt 1 then none
  let atIndicator := after.peek?.any fun x => isBreak .v12 x || isFlowIndicator x
  let t ← (if atIndicator then t.indentContent else t).dropKey?
  return ((t.allowKey true).emit .item).moveTo after

/-- The question mark of a key. A space or a line end follows it, and the key starts behind no
tab. -/
def key? (t : Tokenizer) : Option Tokenizer := do
  if !t.inFlow && !t.keyAllowed then none
  let t := if t.inFlow then { t with mappingStarted := true }
    else t.openBlock t.cursor.column t.tokens.size .blockMapping
  let t ← t.dropKey?
  let start := t.cursor.skip 1
  if !start.peek?.any (fun x => x == ' ' || isBreak .v12 x) then none
  let after := skipSpaces start
  if after.sees '\t' then none
  return ((t.allowKey (!t.inFlow)).emit .key).moveTo after

/-- The place behind a colon and a tab. A name or a hyphen there needs a space before it. -/
def behindColon? (c : Cursor .v12) : Option (Cursor .v12) :=
  if c.sees '\t' then do
    let after ← c.skipInline?
    let spaced := (c.takeWhile isSpaceOrTab).1.contains ' '
    if !spaced && after.peek?.any (fun x => x == '-' || isNameChar x) then none
    return after
  else some c

/-- The colon of a value: it makes the pending key a key, and the key an entry without braces where
it stands right in a sequence in brackets. Such an entry is on one line up to its colon. -/
def value? (t : Tokenizer) : Option Tokenizer := do
  let unbraced := !t.sequences.isEmpty && !t.mappingStarted
  let t := if unbraced then { t with sequences := true :: t.sequences.drop 1 } else t
  let after ← behindColon? (t.cursor.skip 1)
  let t ←
    match t.keys with
    | some key :: outer => do
      if unbraced && key.line < t.cursor.line then none
      let t := { t.emitAt key.position .key with keys := none :: outer }
      let t := if unbraced then t.emitAt key.position .flowMapping else t
      some ((t.openBlock key.column key.position .blockMapping).indentContent.allowKey false)
    | _ => do
      if !t.inFlow && !t.keyAllowed then none
      let t := if unbraced then t.emit .flowMapping else t
      let t := t.openBlock t.cursor.column t.tokens.size .blockMapping
      some (t.indentContent.allowKey (!t.inFlow))
  return (t.emit .value).moveTo after

/-! ## Nodes -/

/-- A token of a node that can be a key. -/
def nodeToken? (t : Tokenizer) (read : Cursor .v12 → Option (Token × Cursor .v12)) :
    Option Tokenizer := do
  let (token, after) ← read t.cursor
  return ((t.saveKey.allowKey false).emit token).moveTo after

/-- A name behind its mark. -/
def readNamed? (token : String → Token) (c : Cursor .v12) : Option (Token × Cursor .v12) :=
  (readName? (c.skip 1)).map fun (name, after) => (token name, after)

/-- What may follow a quoted scalar on its last line. Outside brackets a key is on one line. -/
def endsQuoted (inFlow sameLine : Bool) (c : Cursor .v12) : Bool :=
  c.atLineEnd || (inFlow && c.peek?.any fun x => x == ',' || x == '}' || x == ']')
    || (c.sees ':' && (inFlow || sameLine))

/-- A quoted scalar, from its opening quote. A colon behind it, if there are brackets around, needs
no gap. -/
def quotedScalar? (t : Tokenizer) (double : Bool) : Option Tokenizer := do
  let (text, close) ← readQuoted? double t.indent.toNat (t.cursor.skip 1)
  let lineEnd ← close.skipInline?
  if !endsQuoted t.inFlow (lineEnd.line == t.cursor.line) lineEnd then none
  let (after, keyAllowed) ← nextToken? t.inFlow t.indent false lineEnd
  let t := (t.saveKey.allowKey keyAllowed).emit (.scalar false (String.ofList text))
  return { t with adjacentAt := after.index }.moveTo after

/-- A block scalar. A key can start on the line behind it. -/
def blockScalar? (t : Tokenizer) (literal : Bool) : Option Tokenizer := do
  let t := t.saveKey.leaveContent
  let parent := if t.indent < 0 then none else some t.indent.toNat
  let (text, after) ← readBlock? literal parent (t.cursor.skip 1)
  return ((t.allowKey true).emit (.scalar false (String.ofList text))).moveTo after

/-- A plain scalar. A key can start behind it on another line. -/
def plainScalar? (t : Tokenizer) : Option Tokenizer := do
  let t := t.saveKey.leaveContent
  if t.inFlow && t.cursor.column < t.indent + 1 then none
  let (text, after) ← readPlain? t.inFlow (t.indent + 1).toNat t.cursor
  return ((t.allowKey after.leading).emit (.scalar true (String.ofList text))).moveTo after

/-! ## Documents -/

/-- A token that ends all block collections and allows no key behind it on its line. -/
def documentToken? (t : Tokenizer) (token : Token) (after : Cursor .v12) : Option Tokenizer := do
  let t ← (t.closeBlocks (-1)).dropKey?
  return ((t.allowKey false).emit token).moveTo after

/-- The end of a document, behind which its line is blank. -/
def documentEnd? (t : Tokenizer) : Option Tokenizer := do
  let after ← (t.cursor.skip 3).skipInline?
  if after.atLineEnd then t.documentToken? .documentEnd after else none

/-- The tokens, when the text has ended. -/
def finish? (t : Tokenizer) : Option (Array Token) := do
  let _ ← t.keys.mapM PendingKey.drop?
  return (t.closeBlocks (-1)).tokens

/-- Characters that start no token. -/
def isReserved (c : Char) : Bool := c == '%' || c == '@' || c == '\x60'

/-- Whether the colon here is that of a value. -/
def atValue (t : Tokenizer) : Bool :=
  t.cursor.gapAt 1
    || (t.inFlow && ((t.cursor.peekAt? 1).any isFlowIndicator || t.cursor.index == t.adjacentAt))

def token? (t : Tokenizer) (x : Char) : Option Tokenizer :=
  let c := t.cursor
  if c.column = 0 ∧ x = '%' then do
    let (token, after) ← readDirective? c
    t.documentToken? token after
  else if c.atMarker '-' then t.documentToken? .documentStart (c.skip 3)
  else if c.atMarker '.' then t.documentEnd?
  else if c.column < t.indent then none
  else if x = '[' then t.openBracket? .flowSequence
  else if x = '{' then t.openBracket? .flowMapping
  else if x = ']' then t.closeBracket? .flowSequenceEnd
  else if x = '}' then t.closeBracket? .flowMappingEnd
  else if x = ',' then t.comma?
  else if x = '-' ∧ c.gapAt 1 then t.item?
  else if x = '?' ∧ c.gapAt 1 then t.key?
  else if x = ':' ∧ t.atValue then t.value?
  else if x = '*' then t.nodeToken? (readNamed? .alias)
  else if x = '&' then t.nodeToken? (readNamed? .anchor)
  else if x = '!' then t.nodeToken? (readTag? t.inFlow)
  else if x = '|' ∧ !t.inFlow then t.blockScalar? true
  else if x = '>' ∧ !t.inFlow then t.blockScalar? false
  else if x = '\'' then t.quotedScalar? false
  else if x = '"' then t.quotedScalar? true
  else if isReserved x then none
  else t.plainScalar?

/-- All tokens. Each takes at least one character, so `steps` of them are enough when there are
fewer characters. -/
def run? : (steps : Nat) → Tokenizer → Option (Array Token)
  | 0, _ => none
  | steps + 1, t => do
    let (cursor, keyAllowed) ← nextToken? t.inFlow t.indent t.keyAllowed t.cursor
    let t ← ((t.moveTo cursor).allowKey keyAllowed).dropStaleKeys?
    let t := t.closeBlocks cursor.column
    match cursor.rest with
    | [] => t.finish?
    | x :: _ => (t.token? x).bind (run? steps)

end Tokenizer

/-- The tokens of a text, which ends at its first NUL. -/
def tokenize? (text : List Char) : Option (List Token) :=
  let text := text.takeWhile (· != '\x00')
  (Tokenizer.run? (text.length + 1) { cursor := { rest := text } }).map Array.toList

end MetadataFilter.Yaml.V12
