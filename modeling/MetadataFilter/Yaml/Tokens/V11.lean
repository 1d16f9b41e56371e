import MetadataFilter.Yaml.Directive
import MetadataFilter.Yaml.Scalar.Block
import MetadataFilter.Yaml.Scalar.Plain
import MetadataFilter.Yaml.Scalar.Quoted

/-!
# From text to tokens, edition 1.1

`tokenize?` reads a whole text into tokens. Two things need memory while it goes: the columns of the
block collections that are open, and, for each level of brackets, a node that becomes a key if a
colon follows it on its line (`PendingKey`). A key is marked where it started, before the tokens it
consists of.
-/

namespace MetadataFilter.Yaml.V11

structure Tokenizer where
  cursor : Cursor .v11
  tokens : Array Token := #[]
  /-- The column of the innermost open block collection, or -1. -/
  indent : Int := -1
  /-- The columns around it. -/
  outerIndents : List Int := []
  /-- The pending keys, the innermost level of brackets first and outside all brackets last. -/
  keys : List (Option PendingKey) := [none]
  /-- Whether a key can start here. -/
  keyAllowed : Bool := true

namespace Tokenizer

def inFlow (t : Tokenizer) : Bool := 1 < t.keys.length

def emit (t : Tokenizer) (token : Token) : Tokenizer := { t with tokens := t.tokens.push token }

/-- Puts a token before those from `position` on. -/
def emitAt (t : Tokenizer) (position : Nat) (token : Token) : Tokenizer :=
  { t with tokens := Token.insertAt t.tokens position token }

def allowKey (t : Tokenizer) (allowed : Bool) : Tokenizer := { t with keyAllowed := allowed }

def moveTo (t : Tokenizer) (cursor : Cursor .v11) : Tokenizer := { t with cursor := cursor }

/-! ## Pending keys -/

/-- Gives up the pending key of this level, unless it has to be one. -/
def dropKey? (t : Tokenizer) : Option Tokenizer :=
  (PendingKey.dropFirst? t.keys).map fun keys => { t with keys := keys }

/-- Lets the node that starts here become a key, if one can stand here. -/
def saveKey? (t : Tokenizer) : Option Tokenizer :=
  if t.keyAllowed then do
    let t ← t.dropKey?
    let c := t.cursor
    let required := !t.inFlow && t.indent == c.column
    return { t with
      keys := some ⟨t.tokens.size, required, c.index, c.line, c.column⟩ :: t.keys.drop 1 }
  else some t

/-- Gives up the pending keys that can no longer be keys. -/
def dropStaleKeys? (t : Tokenizer) : Option Tokenizer :=
  (t.keys.mapM (PendingKey.dropStale? t.cursor)).map fun keys => { t with keys := keys }

/-! ## Indentation -/

/-- Opens a block collection at `column`, unless the innermost one is at that column or behind it.
Its token goes before those from `position` on. -/
def openBlock (t : Tokenizer) (column position : Nat) (token : Token) : Tokenizer :=
  if !t.inFlow && t.indent < column then
    { t.emitAt position token with indent := column, outerIndents := t.indent :: t.outerIndents }
  else t

/-- Ends the collections behind `column`. -/
def closeIndents (column indent : Int) (tokens : Array Token) : List Int → Tokenizer → Tokenizer
  | [], t => { t with indent := indent, outerIndents := [], tokens := tokens }
  | outer :: more, t =>
    if column < indent then closeIndents column outer (tokens.push .blockEnd) more t
    else { t with indent := indent, outerIndents := outer :: more, tokens := tokens }

/-- Ends the block collections behind `column`. -/
def closeBlocks (t : Tokenizer) (column : Int) : Tokenizer :=
  if t.inFlow then t else closeIndents column t.indent t.tokens t.outerIndents t

/-! ## Gaps between tokens -/

/-- Past a byte order mark at the start of a line. It takes a column. -/
def skipMark (c : Cursor .v11) : Cursor .v11 :=
  if c.column == 0 && c.sees '\ufeff' then c.skip 1 else c

theorem length_skipMark_le (c : Cursor .v11) : (skipMark c).rest.length ≤ c.rest.length := by
  unfold skipMark
  split
  · exact Cursor.length_skip_le c 1
  · exact Nat.le_refl _

/-- The place where the next token starts, past blanks, comments and line ends, and whether a key
can start there. Tabs do not count as indentation. -/
def nextToken (inFlow keyAllowed : Bool) (c : Cursor .v11) : Cursor .v11 × Bool :=
  let place := ((skipMark c).skipWhile fun x => x == ' ' || (x == '\t' && (inFlow || !keyAllowed)))
    |>.skipComment
  match _h : place.readBreak? with
  | some (_, after) => nextToken inFlow (keyAllowed || !inFlow) after
  | none => (place, keyAllowed)
termination_by c.rest.length
decreasing_by
  exact Nat.lt_of_lt_of_le (Cursor.length_readBreak?_lt _h)
    (Nat.le_trans (Cursor.length_skipComment_le _)
      (Nat.le_trans (Cursor.length_skipWhile_le _ _) (length_skipMark_le c)))

/-! ## Tokens -/

/-- A token that ends all block collections and allows no key behind it on its line. -/
def documentToken? (t : Tokenizer) (token : Token) (after : Cursor .v11) : Option Tokenizer := do
  let t ← (t.closeBlocks (-1)).dropKey?
  return ((t.allowKey false).emit token).moveTo after

def openBracket? (t : Tokenizer) (token : Token) : Option Tokenizer := do
  let t ← t.saveKey?
  let t := { t with keys := none :: t.keys }
  return ((t.allowKey true).emit token).moveTo (t.cursor.skip 1)

def closeBracket? (t : Tokenizer) (token : Token) : Option Tokenizer := do
  let t ← t.dropKey?
  let t := if t.inFlow then { t with keys := t.keys.drop 1 } else t
  return ((t.allowKey false).emit token).moveTo (t.cursor.skip 1)

def comma? (t : Tokenizer) : Option Tokenizer := do
  let t ← t.dropKey?
  return ((t.allowKey true).emit .comma).moveTo (t.cursor.skip 1)

/-- The hyphen of an item. -/
def item? (t : Tokenizer) : Option Tokenizer := do
  if !t.inFlow && !t.keyAllowed then none
  let t ← (t.openBlock t.cursor.column t.tokens.size .blockSequence).dropKey?
  return ((t.allowKey true).emit .item).moveTo (t.cursor.skip 1)

/-- The question mark of a key. -/
def key? (t : Tokenizer) : Option Tokenizer := do
  if !t.inFlow && !t.keyAllowed then none
  let t ← (t.openBlock t.cursor.column t.tokens.size .blockMapping).dropKey?
  return ((t.allowKey (!t.inFlow)).emit .key).moveTo (t.cursor.skip 1)

/-- The colon of a value: it makes the pending key a key. -/
def value? (t : Tokenizer) : Option Tokenizer := do
  let t ←
    match t.keys with
    | some key :: outer =>
      let t := { t.emitAt key.position .key with keys := none :: outer }
      some ((t.openBlock key.column key.position .blockMapping).allowKey false)
    | _ =>
      if t.inFlow then some (t.allowKey false)
      else if t.keyAllowed then some (t.openBlock t.cursor.column t.tokens.size .blockMapping)
      else none
  return (t.emit .value).moveTo (t.cursor.skip 1)

/-- A token of a node that can be a key. -/
def nodeToken? (t : Tokenizer) (read : Cursor .v11 → Option (Token × Cursor .v11)) :
    Option Tokenizer := do
  let t ← t.saveKey?
  let (token, after) ← read t.cursor
  return ((t.allowKey false).emit token).moveTo after

/-- A name behind its mark. -/
def readNamed? (token : String → Token) (c : Cursor .v11) : Option (Token × Cursor .v11) :=
  (readName? (c.skip 1)).map fun (name, after) => (token name, after)

/-- A quoted scalar, from its opening quote. -/
def readQuotedToken? (double : Bool) (c : Cursor .v11) : Option (Token × Cursor .v11) :=
  (readQuoted? double 0 (c.skip 1)).map fun (text, after) =>
    (.scalar false (String.ofList text), after)

/-- A block scalar. A key can start on the line behind it. -/
def blockScalar? (t : Tokenizer) (literal : Bool) : Option Tokenizer := do
  let t ← t.dropKey?
  let parent := if t.indent < 0 then none else some t.indent.toNat
  let (text, after) ← readBlock? literal parent (t.cursor.skip 1)
  return ((t.allowKey true).emit (.scalar false (String.ofList text))).moveTo after

/-- A plain scalar. A key can start behind it on another line. -/
def plainScalar? (t : Tokenizer) : Option Tokenizer := do
  let t ← t.saveKey?
  let (text, after) ← readPlain? t.inFlow (t.indent + 1).toNat t.cursor
  return ((t.allowKey after.leading).emit (.scalar true (String.ofList text))).moveTo after

/-- Characters that start no plain scalar, unless they are let through for what follows them. -/
def isIndicator (c : Char) : Bool :=
  "-?:,[]\x7b\x7d#&*!|>'\"%@".toList.contains c || c == '\x60'

def token? (t : Tokenizer) (x : Char) : Option Tokenizer :=
  let c := t.cursor
  if c.column = 0 ∧ x = '%' then do
    let (token, after) ← readDirective? c
    t.documentToken? token after
  else if c.atMarker '-' then t.documentToken? .documentStart (c.skip 3)
  else if c.atMarker '.' then t.documentToken? .documentEnd (c.skip 3)
  else if x = '[' then t.openBracket? .flowSequence
  else if x = '{' then t.openBracket? .flowMapping
  else if x = ']' then t.closeBracket? .flowSequenceEnd
  else if x = '}' then t.closeBracket? .flowMappingEnd
  else if x = ',' then t.comma?
  else if x = '-' ∧ c.gapAt 1 then t.item?
  else if x = '?' ∧ (t.inFlow ∨ c.gapAt 1) then t.key?
  else if x = ':' ∧ (t.inFlow ∨ c.gapAt 1) then t.value?
  else if x = '*' then t.nodeToken? (readNamed? .alias)
  else if x = '&' then t.nodeToken? (readNamed? .anchor)
  else if x = '!' then t.nodeToken? (readTag? t.inFlow)
  else if x = '|' ∧ !t.inFlow then t.blockScalar? true
  else if x = '>' ∧ !t.inFlow then t.blockScalar? false
  else if x = '\'' then t.nodeToken? (readQuotedToken? false)
  else if x = '"' then t.nodeToken? (readQuotedToken? true)
  else if x = '-' ∨ (!t.inFlow ∧ (x = '?' ∨ x = ':')) then t.plainScalar?
  else if isGap .v11 x || isIndicator x then none
  else t.plainScalar?

/-- All tokens. Each takes at least one character, so `steps` of them are enough when there are
fewer characters. -/
def run? : (steps : Nat) → Tokenizer → Option (Array Token)
  | 0, _ => none
  | steps + 1, t => do
    let (cursor, keyAllowed) := nextToken t.inFlow t.keyAllowed t.cursor
    let t ← ((t.moveTo cursor).allowKey keyAllowed).dropStaleKeys?
    let t := t.closeBlocks cursor.column
    match cursor.rest with
    | [] => (t.closeBlocks (-1)).dropKey?.map Tokenizer.tokens
    | x :: _ => (t.token? x).bind (run? steps)

end Tokenizer

/-- The characters that a YAML text may hold. -/
def isPrintable (c : Char) : Bool :=
  let n := c.toNat
  n == 0x09 || n == 0x0A || n == 0x0D || (0x20 ≤ n && n ≤ 0x7E) || n == 0x85
    || (0xA0 ≤ n && n ≤ 0xD7FF) || (0xE000 ≤ n && n ≤ 0xFFFD) || 0x10000 ≤ n

def tokenize? (text : List Char) : Option (List Token) :=
  if text.all isPrintable then
    (Tokenizer.run? (text.length + 1) { cursor := { rest := text } }).map Array.toList
  else none

end MetadataFilter.Yaml.V11
