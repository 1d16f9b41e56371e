import MetadataFilter.Number.Integer
import MetadataFilter.Yaml.Gap

/-!
# Quoted scalars

Between single quotes only a doubled quote is special; between double quotes a backslash starts an
escape, and one at the end of a line joins the lines without a space. Gaps are folded in both. A
document marker at the start of a line ends no quotes, it is an error, and so is a line that does
not reach the column where the lines of the scalar have to start.
-/

namespace MetadataFilter.Yaml

variable {e : Edition}

def letterEscape? : Char → Option Char
  | '0' => some '\x00'
  | 'a' => some '\x07'
  | 'b' => some '\x08'
  | 't' | '\t' => some '\t'
  | 'n' => some '\n'
  | 'v' => some '\x0b'
  | 'f' => some '\x0c'
  | 'r' => some '\r'
  | 'e' => some '\x1b'
  | ' ' => some ' '
  | '"' => some '"'
  | '/' => some '/'
  | '\\' => some '\\'
  | 'N' => some '\x85'
  | '_' => some '\xa0'
  | 'L' => some '\u2028'
  | 'P' => some '\u2029'
  | _ => none

/-- How many hexadecimal digits follow a letter that escapes a character by its number. -/
def hexEscapeLength? : Char → Option Nat
  | 'x' => some 2
  | 'u' => some 4
  | 'U' => some 8
  | _ => none

/-- The character with the number that exactly `length` hexadecimal digits give. Surrogates are not
characters, alone or in pairs. -/
def hexEscape? (length : Nat) (text : List Char) : Option Char :=
  let digits := text.take length
  if digits.length = length ∧ digits.all (Text.hexDigit? · |>.isSome) then
    let number := digits.foldl (fun n c => n * 16 + (Text.hexDigit? c).getD 0) 0
    if (0xD800 ≤ number ∧ number ≤ 0xDFFF) ∨ 0x10FFFF < number then none
    else some (Char.ofNat number)
  else none

/-- Puts characters in front of what a reader found. -/
def precededBy (text : List Char) (found : Option (List Char × Cursor e)) :
    Option (List Char × Cursor e) :=
  found.map fun (more, after) => (text ++ more, after)

/-- The content of a quoted scalar from `c`, behind its opening quote, and the place behind its
closing quote. Its lines start at `minColumn` or behind it. -/
def readQuoted? (double : Bool) (minColumn : Nat) (c : Cursor e) : Option (List Char × Cursor e) :=
  match _h : c.rest with
  | [] => none
  | x :: more =>
    if c.atDocumentMarker || c.column < minColumn then none
    else if _hx : isGap e x then
      match _hg : Gap.read? false minColumn c with
      | none => none
      | some gap => precededBy gap.folded (readQuoted? double minColumn gap.cursor)
    else if x = (if double then '"' else '\'') then
      if !double && more.head? == some '\'' then
        precededBy ['\''] (readQuoted? double minColumn (c.skip 2))
      else some ([], c.skip 1)
    else if double && x == '\\' then
      match more with
      | [] => none
      | y :: digits =>
        if isBreak e y then
          match _hg : Gap.readOn? false minColumn
              { breaks := ['\n'], cursor := (c.skip 1).skipBreak } with
          | none => none
          | some gap => precededBy (gap.breaks.drop 1) (readQuoted? double minColumn gap.cursor)
        else
          match letterEscape? y, hexEscapeLength? y with
          | some z, _ => precededBy [z] (readQuoted? double minColumn (c.skip 2))
          | none, some length =>
            match hexEscape? length digits with
            | some z => precededBy [z] (readQuoted? double minColumn (c.skip (2 + length)))
            | none => none
          | none, none => none
    else precededBy [x] (readQuoted? double minColumn (c.skip 1))
termination_by c.rest.length
decreasing_by
  · exact Gap.length_read?_lt _h _hx _hg
  · exact Cursor.length_skip_lt (by simp_all) (by decide)
  · exact Nat.lt_of_le_of_lt
      (Nat.le_trans (Gap.length_readOn?_le _hg) (Cursor.length_skipBreak_le (c.skip 1)))
      (Cursor.length_skip_lt (by simp_all) (by decide))
  · exact Cursor.length_skip_lt (by simp_all) (by decide)
  · exact Cursor.length_skip_lt (by simp_all) (by omega)
  · exact Cursor.length_skip_lt (by simp_all) (by decide)

end MetadataFilter.Yaml
