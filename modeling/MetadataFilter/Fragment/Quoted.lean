/-!
# Text between quotes

A string literal of a fragment stands between double quotes. `escape` puts a backslash before every
quote and every backslash, and `closeLiteral?` reads a literal to its end: inside one, a backslash
makes the next character part of the text, and the first other quote closes it.

* A text without either is not gone through, and this makes no difference (`escape_eq_flatMap`).
* Escaping is compositional (`escape_append`).
* What is escaped reads back, up to the quote that was put behind it and no further
  (`closeLiteral?_escape`).
-/

namespace MetadataFilter.Fragment

/-- The characters that end or bend a literal. -/
def isSpecial (c : Char) : Bool := c == '\\' || c == '"'

/-- A character with a backslash before it if it is special. -/
def escapeChar (c : Char) : List Char := if isSpecial c then ['\\', c] else [c]

/-- A backslash before every quote and every backslash. A text that has none is taken as it is. -/
def escape (text : List Char) : List Char :=
  if text.any isSpecial then text.flatMap escapeChar else text

/-- The text of a literal and what follows it, from behind the opening quote. -/
def closeLiteral? : List Char → Option (List Char × List Char)
  | [] => none
  | '"' :: rest => some ([], rest)
  | '\\' :: c :: rest => (closeLiteral? rest).map fun (text, after) => (c :: text, after)
  | c :: rest => (closeLiteral? rest).map fun (text, after) => (c :: text, after)

theorem flatMap_escapeChar_of_plain {text : List Char} (plain : text.any isSpecial = false) :
    text.flatMap escapeChar = text := by
  induction text with
  | nil => rfl
  | cons c text ih =>
    rw [List.any_cons, Bool.or_eq_false_iff] at plain
    have notSpecial : ¬isSpecial c = true := Bool.eq_false_iff.1 plain.1
    rw [List.flatMap_cons, escapeChar, if_neg notSpecial, ih plain.2, List.singleton_append]

/-- A text that is taken as it is comes out as if it had been gone through. -/
theorem escape_eq_flatMap (text : List Char) : escape text = text.flatMap escapeChar := by
  unfold escape
  split
  · rfl
  · rename_i plain
    exact (flatMap_escapeChar_of_plain (Bool.eq_false_iff.2 plain)).symm

@[simp] theorem escape_nil : escape [] = [] := rfl

@[simp] theorem escape_cons (c : Char) (text : List Char) :
    escape (c :: text) = escapeChar c ++ escape text := by
  rw [escape_eq_flatMap, escape_eq_flatMap, List.flatMap_cons]

/-- The parts of a text may be taken as they are or gone through, each on its own. -/
theorem escape_append (s t : List Char) : escape (s ++ t) = escape s ++ escape t := by
  rw [escape_eq_flatMap, escape_eq_flatMap, escape_eq_flatMap, List.flatMap_append]

theorem closeLiteral?_escapeChar (c : Char) (rest : List Char) :
    closeLiteral? (escapeChar c ++ rest) =
      (closeLiteral? rest).map fun (text, after) => (c :: text, after) := by
  by_cases hc : c = '\\'
  · subst hc
    rfl
  · by_cases hq : c = '"'
    · subst hq
      rfl
    · simp [escapeChar, isSpecial, hc, hq, closeLiteral?]

theorem closeLiteral?_escape (s rest : List Char) :
    closeLiteral? (escape s ++ '"' :: rest) = some (s, rest) := by
  induction s with
  | nil => simp [closeLiteral?]
  | cons c s ih => simp [closeLiteral?_escapeChar, ih]

end MetadataFilter.Fragment
