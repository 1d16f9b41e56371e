import MetadataFilter.Yaml.Cursor

/-!
# The tokens of a YAML text

Tokens make layout explicit: a block collection starts and ends with a token of its own, and every
key of a mapping has a token before it, also where the text shows one only by the colon that
follows. Until that colon is read, a node that can be a key is a `PendingKey`.
-/

namespace MetadataFilter.Yaml

inductive Token
  | version (major minor : Nat)
  | tagHandle (handle uri : String)
  | documentStart
  | documentEnd
  | blockSequence
  | blockMapping
  | blockEnd
  | flowSequence
  | flowSequenceEnd
  | flowMapping
  | flowMappingEnd
  | item
  | comma
  | key
  | value
  | alias (name : String)
  | anchor (name : String)
  | tag (handle suffix : String)
  | scalar (plain : Bool) (text : String)
  deriving DecidableEq

/-- Puts a token before those from `position` on. -/
def Token.insertAt (tokens : Array Token) (position : Nat) (token : Token) : Array Token :=
  tokens.extract 0 position ++ #[token] ++ tokens.extract position tokens.size

/-- A node that may turn out to be a key. -/
structure PendingKey where
  /-- The number of tokens before it. -/
  position : Nat
  /-- It stands where only a key can stand. -/
  required : Bool
  index : Nat
  line : Nat
  column : Nat

namespace PendingKey

/-- A key ends on the line where it starts, and not further away than this. -/
def maxLength : Nat := 1024

/-- Whether a node that starts here can no longer be a key. -/
def isStale {e : Edition} (c : Cursor e) (key : PendingKey) : Bool :=
  key.line < c.line || key.index + maxLength < c.index

/-- Gives up a key, unless it has to be one. -/
def drop? : Option PendingKey → Option (Option PendingKey)
  | some key => if key.required then none else some none
  | none => some none

/-- Gives up a key that can no longer be one. -/
def dropStale? {e : Edition} (c : Cursor e) : Option PendingKey → Option (Option PendingKey)
  | some key => if key.isStale c then drop? (some key) else some (some key)
  | none => some none

/-- Gives up the innermost of the keys. -/
def dropFirst? : List (Option PendingKey) → Option (List (Option PendingKey))
  | key :: outer => (drop? key).map (· :: outer)
  | [] => some []

end PendingKey

end MetadataFilter.Yaml
