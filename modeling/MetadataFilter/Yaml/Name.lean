import MetadataFilter.Number.Integer
import MetadataFilter.Yaml.Token

/-!
# Names and tags in a YAML text

Readers of the small tokens that a mark starts: anchors, aliases and tags. Each gives the place
behind what it read.

The names of anchors hold name characters in 1.1, and in 1.2 all that neither divides nor ends. A
tag may hold octets as escapes: 1.1 reads those of a character as UTF-8, and 1.2 as the digits of
its number in base 256.
-/

namespace MetadataFilter.Yaml

variable {e : Edition}

/-! ## Names -/

def isAnchorChar : Edition → Char → Bool
  | .v11, c => isNameChar c
  | .v12, c => !isGap .v12 c && !isFlowIndicator c && c != '\ufeff'

def endsName (c : Cursor e) : Bool :=
  match e with
  | .v11 => c.gapAt 0 || c.peek?.any fun x => "?:,]\x7d%@".toList.contains x || x == '\x60'
  | .v12 => true

/-- The name of an anchor or alias, from behind its mark. -/
def readName? (c : Cursor e) : Option (String × Cursor e) :=
  let (name, after) := c.takeWhile (isAnchorChar e)
  if name.isEmpty || !endsName after then none else some (String.ofList name, after)

/-! ## Octets -/

/-- An octet written as a percent sign with two hexadecimal digits. -/
def octet? : List Char → Option Nat
  | '%' :: a :: b :: _ =>
    match Text.hexDigit? a, Text.hexDigit? b with
    | some a, some b => some (a * 16 + b)
    | _, _ => none
  | _ => none

/-- How many octets a character takes that starts with the given octet, and where octets of that
number start. -/
def leadingOctet? (octet : Nat) : Option (Nat × Nat) :=
  if octet < 0x80 then some (1, 0)
  else if 0xC0 ≤ octet ∧ octet < 0xE0 then some (2, 0xC0)
  else if 0xE0 ≤ octet ∧ octet < 0xF0 then some (3, 0xE0)
  else if 0xF0 ≤ octet ∧ octet < 0xF8 then some (4, 0xF0)
  else none

def trailingOctets? : (count : Nat) → List Char → Option (List Nat)
  | 0, _ => some []
  | count + 1, text =>
    match octet? text with
    | some octet =>
      if 0x80 ≤ octet ∧ octet < 0xC0 then (trailingOctets? count (text.drop 3)).map (octet :: ·)
      else none
    | none => none

/-- The character of a leading octet, less its start, and the octets that follow. -/
def charOfOctets? : Edition → (start leading : Nat) → (trailing : List Nat) → Option Char
  | .v11, start, leading, trailing =>
    some (Char.ofNat (trailing.foldl (fun n octet => n * 64 + (octet - 0x80)) (leading - start)))
  | .v12, _, leading, trailing =>
    let number := trailing.foldl (fun n octet => n * 256 + octet) leading
    if number.isValidChar then some (Char.ofNat number) else none

/-- A character written in octets, and the number of characters that spell it. -/
def escapedChar? (e : Edition) (text : List Char) : Option (Char × Nat) := do
  let leading ← octet? text
  let (width, start) ← leadingOctet? leading
  let trailing ← trailingOctets? (width - 1) (text.drop 3)
  let c ← charOfOctets? e start leading trailing
  return (c, 3 * width)

/-! ## Tags -/

/-- The parts of a tag: what a handle stands for, what is in angle brackets, and what follows a
handle. -/
inductive UriPart
  | handleValue
  | verbatim
  | suffix
  deriving DecidableEq

/-- The characters of a part, apart from escapes. Brackets and commas divide, so no suffix holds
them; in 1.2 it holds no exclamation mark either. -/
def isUriChar (e : Edition) (part : UriPart) (c : Char) : Bool :=
  isNameChar c || ";/?:@&=+$.~*'()".toList.contains c
    || (c == '#' && e == .v12)
    || (c == '!' && (e == .v11 || part != .suffix))
    || (",[]".toList.contains c && part != .suffix)

/-- The characters of a part at the front of a text, and how many characters spell them. -/
def readUri? (e : Edition) (part : UriPart) (text : List Char) : Option (List Char × Nat) :=
  match text with
  | [] => some ([], 0)
  | c :: rest =>
    if c = '%' then
      match escapedChar? e (c :: rest) with
      | none => none
      | some (x, length) =>
        (readUri? e part (rest.drop (length - 1))).map fun (more, n) => (x :: more, n + length)
    else if isUriChar e part c then
      (readUri? e part rest).map fun (more, n) => (c :: more, n + 1)
    else some ([], 0)
termination_by text.length
decreasing_by
  · simp only [List.length_drop, List.length_cons]
    omega
  · simp

/-- The handle of a tag: an exclamation mark, a name, and another exclamation mark if there is
one. -/
def readHandle? (c : Cursor e) : Option (List Char × Cursor e) :=
  if c.sees '!' then
    let (name, after) := (c.skip 1).takeWhile isNameChar
    if after.sees '!' then some ('!' :: name ++ ['!'], after.skip 1) else some ('!' :: name, after)
  else none

/-- Whether a handle ends with an exclamation mark that does not start it. -/
def isClosedHandle (handle : List Char) : Bool := 1 < handle.length && handle.getLast? == some '!'

def endsTag (inFlow : Bool) (c : Cursor e) : Bool :=
  c.gapAt 0 || (inFlow && match e with
    | .v11 => c.sees ','
    | .v12 => c.peek?.any isFlowIndicator)

/-- A tag: in angle brackets, with a handle, or with the primary handle. A lone exclamation mark has
no handle. In 1.1 there is something in the brackets. -/
def readTag? (inFlow : Bool) (c : Cursor e) : Option (Token × Cursor e) := do
  let (handle, suffix, after) ←
    if c.peekAt? 1 == some '<' then do
      let start := c.skip 2
      let (uri, length) ← readUri? e .verbatim start.rest
      let close := start.skip length
      if (e == .v11 && uri.isEmpty) || !close.sees '>' then none
      some ([], uri, close.skip 1)
    else do
      let (handle, place) ← readHandle? c
      let (uri, length) ← readUri? e .suffix place.rest
      if isClosedHandle handle then
        if uri.isEmpty then none
        some (handle, uri, place.skip length)
      else
        let suffix := handle.drop 1 ++ uri
        if suffix.isEmpty then some ([], ['!'], place.skip length)
        else some (['!'], suffix, place.skip length)
  if endsTag inFlow after then some (.tag (String.ofList handle) (String.ofList suffix), after)
  else none

end MetadataFilter.Yaml
