import MetadataFilter.Json.Written
import MetadataFilter.Text.Step

/-!
# Reading JSON

The grammar is that of RFC 8259, strictly: no blank but space, tab, line feed and carriage return,
no control character inside a string, no unpaired surrogate, nothing after the value. Lists and
objects nest at most `maxNesting` deep.

`Written.ofText?` reads the text, `Json.ofText?` also gives it its value.
-/

namespace MetadataFilter.Json

open Text (Step hexDigit? length_dropWhile_le)

def maxNesting : Nat := 127

def isBlank (c : Char) : Bool := c == ' ' || c == '\t' || c == '\n' || c == '\r'

def skipBlanks (text : List Char) : List Char := text.dropWhile isBlank

/-- Four hexadecimal digits: one unit of UTF-16. -/
def codeUnit? : (text : List Char) → Option (Step Nat text)
  | a :: b :: c :: d :: rest =>
    match hexDigit? a, hexDigit? b, hexDigit? c, hexDigit? d with
    | some a, some b, some c, some d =>
      some ⟨((a * 16 + b) * 16 + c) * 16 + d, rest, by simp; omega⟩
    | _, _, _, _ => none
  | _ => none

/-- The character that is escaped by a single letter. -/
def shortEscape? : Char → Option Char
  | '"' => some '"'
  | '\\' => some '\\'
  | '/' => some '/'
  | 'b' => some '\x08'
  | 'f' => some '\x0c'
  | 'n' => some '\n'
  | 'r' => some '\r'
  | 't' => some '\t'
  | _ => none

/-- The second half of a surrogate pair, after the first half. -/
def lowSurrogate? (text : List Char) : Option (Step Nat text) :=
  match text with
  | '\\' :: 'u' :: rest =>
    match codeUnit? rest with
    | some low =>
      if 0xDC00 ≤ low.value ∧ low.value < 0xE000 then some (low.widen (by simp; omega)) else none
    | none => none
  | _ => none

/-- The character of an escape, after its backslash. -/
def escape? (text : List Char) : Option (Step Char text) :=
  match text with
  | 'u' :: rest =>
    match codeUnit? rest with
    | none => none
    | some unit =>
      if 0xD800 ≤ unit.value ∧ unit.value < 0xDC00 then
        match lowSurrogate? unit.rest with
        | none => none
        | some low =>
          some ⟨Char.ofNat (0x10000 + (unit.value - 0xD800) * 0x400 + (low.value - 0xDC00)),
            low.rest, by have := unit.shorter; have := low.shorter; simp; omega⟩
      else if 0xDC00 ≤ unit.value ∧ unit.value < 0xE000 then none
      else some ⟨Char.ofNat unit.value, unit.rest, by have := unit.shorter; simp; omega⟩
  | letter :: rest => (shortEscape? letter).map fun c => ⟨c, rest, by simp⟩
  | [] => none

/-- The characters of a string, after its opening quote and up to its closing quote. -/
def unquote? (text : List Char) : Option (Step (List Char) text) :=
  match text with
  | [] => none
  | c :: rest =>
    if c = '"' then some ⟨[], rest, Nat.lt_succ_self _⟩
    else if c = '\\' then
      match escape? rest with
      | none => none
      | some e =>
        match unquote? e.rest with
        | none => none
        | some r => some ⟨e.value :: r.value, r.rest,
            Nat.lt_succ_of_lt (Nat.lt_trans r.shorter e.shorter)⟩
    else if c.toNat < 0x20 then none
    else
      match unquote? rest with
      | none => none
      | some r => some ⟨c :: r.value, r.rest, Nat.lt_succ_of_lt r.shorter⟩
termination_by text.length
decreasing_by
  · have := e.shorter; simp; omega
  · simp

def isNumeralChar (c : Char) : Bool :=
  c.isDigit || c == '-' || c == '+' || c == '.' || c == 'e' || c == 'E'

/-- Items separated by commas, after the opening bracket and up to the closing one. There is at
least one item. -/
def readItems {α : Type} (close : Char) (readItem : (text : List Char) → Option (Step α text))
    (text : List Char) : Option (Step (List α) text) :=
  match readItem text with
  | none => none
  | some item =>
    match h : skipBlanks item.rest with
    | [] => none
    | c :: rest =>
      have shorter : rest.length < text.length := by
        have h₁ := length_dropWhile_le isBlank item.rest
        have h₂ := item.shorter
        rw [show item.rest.dropWhile isBlank = c :: rest from h] at h₁
        simp at h₁
        omega
      if c = close then some ⟨[item.value], rest, shorter⟩
      else if c = ',' then
        match readItems close readItem rest with
        | none => none
        | some items =>
          some ⟨item.value :: items.value, items.rest, Nat.lt_trans items.shorter shorter⟩
      else none
termination_by text.length

/-- No items, or items as `readItems` reads them. -/
def readList {α : Type} (close : Char) (readItem : (text : List Char) → Option (Step α text))
    (text : List Char) : Option (Step (List α) text) :=
  match h : skipBlanks text with
  | [] => none
  | c :: rest =>
    if c = close then
      some ⟨[], rest, by
        have h₁ := length_dropWhile_le isBlank text
        rw [show text.dropWhile isBlank = c :: rest from h] at h₁
        exact h₁⟩
    else readItems close readItem text

/-- A key, a colon and a value. -/
def readMember {α : Type} (readValue : (text : List Char) → Option (Step α text))
    (text : List Char) : Option (Step (String × α) text) :=
  match h : skipBlanks text with
  | '"' :: quoted =>
    match unquote? quoted with
    | none => none
    | some key =>
      match h' : skipBlanks key.rest with
      | ':' :: rest =>
        match readValue rest with
        | none => none
        | some value =>
          some ⟨(String.ofList key.value, value.value), value.rest, by
            have h₁ := length_dropWhile_le isBlank text
            have h₂ := length_dropWhile_le isBlank key.rest
            have h₃ := key.shorter
            have h₄ := value.shorter
            rw [show text.dropWhile isBlank = _ :: quoted from h] at h₁
            rw [show key.rest.dropWhile isBlank = _ :: rest from h'] at h₂
            simp at h₁ h₂
            omega⟩
      | _ => none
  | _ => none

/-- The rest after a given word. -/
def dropWord? : (word text : List Char) → Option (List Char)
  | [], text => some text
  | _ :: _, [] => none
  | w :: word, c :: text => if w = c then dropWord? word text else none

/-- The words that stand for values. -/
def readWord (text : List Char) : Option (Written × List Char) :=
  match dropWord? "null".toList text with
  | some rest => some (.null, rest)
  | none =>
    match dropWord? "true".toList text with
    | some rest => some (.bool true, rest)
    | none => (dropWord? "false".toList text).map fun rest => (.bool false, rest)

/-- A numeral, as long as characters of numerals follow. -/
def readNumeral (text : List Char) : Option (Written × List Char) :=
  (Numeral.ofText? (text.takeWhile isNumeralChar)).map fun n =>
    (.number n, text.dropWhile isNumeralChar)

/-- A value, with blanks before it; lists and objects nest at most `levels` deep. -/
def Written.read (levels : Nat) (text : List Char) : Option (Step Written text) :=
  match h : skipBlanks text with
  | [] => none
  | c :: rest =>
    have shorter : rest.length < text.length := by
      have h₁ := length_dropWhile_le isBlank text
      rw [show text.dropWhile isBlank = c :: rest from h] at h₁
      simp at h₁
      omega
    if c = '"' then
      (unquote? rest).map fun s =>
        ⟨.string (String.ofList s.value), s.rest, Nat.lt_trans s.shorter shorter⟩
    else if c = '[' then
      match levels with
      | 0 => none
      | levels + 1 => (readList ']' (Written.read levels) rest).map fun s =>
          ⟨.array s.value, s.rest, Nat.lt_trans s.shorter shorter⟩
    else if c = '\x7b' then
      match levels with
      | 0 => none
      | levels + 1 => (readList '\x7d' (readMember (Written.read levels)) rest).map fun s =>
          ⟨.object s.value, s.rest, Nat.lt_trans s.shorter shorter⟩
    else
      match (readWord (c :: rest)).or (readNumeral (c :: rest)) with
      | none => none
      | some (value, after) =>
        if h' : after.length < text.length then some ⟨value, after, h'⟩ else none

def Written.ofText? (text : List Char) : Option Written :=
  match Written.read maxNesting text with
  | none => none
  | some step => if (skipBlanks step.rest).isEmpty then some step.value else none

def ofText? (text : List Char) : Option Json := (Written.ofText? text).bind Written.value?

end MetadataFilter.Json
