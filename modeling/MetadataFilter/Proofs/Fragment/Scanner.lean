import MetadataFilter.Proofs.Fragment.Escaping
import MetadataFilter.Proofs.Fragment.Parameters
import MetadataFilter.Proofs.Fragment.Scalar
import MetadataFilter.Proofs.Fragment.Template

/-!
# Literals of a fragment

A scanner goes through a text and tells literals from code: outside a literal a quote opens one,
inside a backslash takes the next character as it is and any other quote closes the literal.
`Scans` says what a text adds to the code and to the literals when the scanner comes to it outside
a literal and leaves it outside one.

* `Scans.append`: what two texts add, one behind the other.
* `scans_literalText`: what a strict mode puts between quotes is one literal, with these contents.
* `scans_write`: a template adds its names and strings as literals and all else as code.
-/

namespace MetadataFilter

namespace Fragment

/-! ## The scanner -/

/-- Where a scanner is; in a literal, with the contents of the literal so far. -/
inductive Place
  | outside
  | inside (contents : List Char)
  | escaping (contents : List Char)

/-- What a scanner has seen. The code has both quotes of every literal and nothing between them. -/
structure Scan where
  place : Place := .outside
  code : List Char := []
  literals : List (List Char) := []

namespace Scan

def step (s : Scan) (c : Char) : Scan :=
  match s.place with
  | .outside =>
    { s with place := if c = '"' then .inside [] else .outside, code := s.code ++ [c] }
  | .inside contents =>
    if c = '\\' then { s with place := .escaping contents }
    else if c = '"' then
      { place := .outside, code := s.code ++ [c], literals := s.literals ++ [contents] }
    else { s with place := .inside (contents ++ [c]) }
  | .escaping contents => { s with place := .inside (contents ++ [c]) }

def run (s : Scan) (text : List Char) : Scan := text.foldl step s

theorem run_append (s : Scan) (p q : List Char) : s.run (p ++ q) = (s.run p).run q :=
  List.foldl_append

end Scan

/-- What the scanner makes of a whole text. -/
def scan (text : List Char) : Scan := Scan.run {} text

/-- From outside to outside a literal, the text adds this code and these literals. -/
def Scans (text code : List Char) (literals : List (List Char)) : Prop :=
  ∀ codeBefore literalsBefore,
    Scan.run ⟨.outside, codeBefore, literalsBefore⟩ text =
      ⟨.outside, codeBefore ++ code, literalsBefore ++ literals⟩

theorem Scans.scan_eq {text code : List Char} {literals : List (List Char)}
    (h : Scans text code literals) : scan text = ⟨.outside, code, literals⟩ :=
  h [] []

theorem Scans.append {p q code code' : List Char} {literals literals' : List (List Char)}
    (hp : Scans p code literals) (hq : Scans q code' literals') :
    Scans (p ++ q) (code ++ code') (literals ++ literals') := by
  intro codeBefore literalsBefore
  rw [Scan.run_append, hp, hq, List.append_assoc, List.append_assoc]

/-! ## Code and literals -/

/-- A text without quotes is code. -/
theorem scans_code {text : List Char} (h : '"' ∉ text) : Scans text text [] := by
  intro codeBefore literalsBefore
  rw [List.append_nil]
  induction text generalizing codeBefore with
  | nil => rw [List.append_nil]; rfl
  | cons c text ih =>
    have ne : c ≠ '"' := fun eq => h (eq ▸ List.mem_cons_self)
    have first : Scan.step ⟨.outside, codeBefore, literalsBefore⟩ c =
        ⟨.outside, codeBefore ++ [c], literalsBefore⟩ := by simp [Scan.step, ne]
    rw [Scan.run, List.foldl_cons, first, ← Scan.run, ih fun mem => h (List.mem_cons_of_mem c mem),
      List.append_assoc, List.singleton_append]

/-- Inside a literal the scanner follows the rules of literals, up to the quote that closes it. -/
theorem Closes.run {text contents after : List Char} (closes : Closes text contents after)
    (before code : List Char) (literals : List (List Char)) :
    Scan.run ⟨.inside before, code, literals⟩ text =
      Scan.run ⟨.outside, code ++ ['"'], literals ++ [before ++ contents]⟩ after := by
  induction closes generalizing before with
  | quote after =>
    rw [List.append_nil]
    rfl
  | escaped c closes ih =>
    rw [List.append_cons before, ← ih (before ++ [c])]
    rfl
  | @plain c notSpecial rest contents after closes ih =>
    have first : Scan.step ⟨.inside before, code, literals⟩ c =
        ⟨.inside (before ++ [c]), code, literals⟩ := by
      simp [Scan.step, ne_of_isSpecial_eq_false notSpecial]
    rw [List.append_cons before, ← ih (before ++ [c]), ← first]
    rfl

theorem scans_literalText {mode : Mode} (strict : mode.isStrict = true) (text : String) :
    Scans (literalText mode text) ['"', '"'] [text.toList] := by
  intro codeBefore literalsBefore
  have opening : Scan.run ⟨.outside, codeBefore, literalsBefore⟩ ['"'] =
      ⟨.inside [], codeBefore ++ ['"'], literalsBefore⟩ := rfl
  have closes : Closes (escape text.toList ++ ['"']) text.toList [] :=
    closeLiteral?_eq_some_iff.1 (closeLiteral?_escape text.toList [])
  rw [literalText, if_pos strict, ← List.singleton_append, List.append_assoc, Scan.run_append,
    opening, closes.run, List.nil_append, List.append_assoc]
  rfl

end Fragment

/-! ## Templates -/

/-- The scalar with the empty text, if it is a text. -/
def Scalar.eraseText : Scalar → Scalar
  | .string _ => .string ""
  | x => x

/-- The text that a scalar is, if it is one. -/
def Scalar.texts : Scalar → List String
  | .string s => [s]
  | _ => []

namespace Fragment

/-- Code has no quotes, and numbers are finite. -/
def Piece.Plain : Piece → Prop
  | .code text => '"' ∉ text
  | .name _ => True
  | .value x => x.Finite

def Piece.eraseText : Piece → Piece
  | .code text => .code text
  | .name _ => .name ""
  | .value x => .value x.eraseText

/-- What the mode puts between quotes. -/
def Piece.texts (mode : Mode) : Piece → List String
  | .code _ => []
  | .name field => [field]
  | .value x => if mode = .escaped then x.texts else []

theorem quote_not_mem_of_bare {text : List Char} (h : ∀ c ∈ text, isBareChar c = true) :
    '"' ∉ text :=
  fun mem => absurd (h '"' mem) (by decide)

theorem mem_placeholder {number : Nat} {x : Scalar} {c : Char} (h : c ∈ placeholder number x) :
    isBareChar c = true ∨ c ∈ "<>$".toList := by
  have type : ∀ c ∈ (parameterType x).toList, isBareChar c = true := by
    cases x <;> simp [parameterType] <;> decide
  have name : ∀ c ∈ (parameterName number).toList, isBareChar c = true := by
    rw [parameterName_toList]
    intro c mem
    rcases List.mem_cons.1 mem with rfl | mem
    · rfl
    · simp [isBareChar, isNumberChar_of_isDigit (isDigit_of_mem_toDigits mem)]
  rcases List.mem_append.1 h with h | h
  · rcases List.mem_append.1 h with h | h
    · rcases List.mem_cons.1 h with rfl | h
      · exact .inr (by decide)
      · exact .inl (type c h)
    · exact .inr (List.mem_cons_of_mem _ h)
  · exact .inl (name c h)

theorem quote_not_mem_placeholder (number : Nat) (x : Scalar) : '"' ∉ placeholder number x :=
  fun mem => absurd (mem_placeholder mem) (by decide)

theorem scans_valueText {mode : Mode} (strict : mode.isStrict = true) (number : Nat) {x : Scalar}
    (hx : x.Finite) :
    Scans (valueText mode number x) (valueText mode number x.eraseText)
      (((Piece.value x).texts mode).map String.toList) := by
  cases mode with
  | legacy => exact absurd strict (by decide)
  | escaped =>
    rcases string_or_bare hx with ⟨s, rfl⟩ | ⟨ne, -, bare⟩
    · exact scans_literalText rfl s
    · cases x with
      | string s => exact absurd rfl (ne s)
      | _ => exact scans_code (quote_not_mem_of_bare bare)
  | parameterized =>
    have erased : placeholder number x.eraseText = placeholder number x := by cases x <;> rfl
    rw [valueText, valueText, erased]
    exact scans_code (quote_not_mem_placeholder number x)

theorem scans_write {mode : Mode} (strict : mode.isStrict = true) (number : Nat)
    {pieces : List Piece} (plain : ∀ piece ∈ pieces, piece.Plain) :
    Scans (write mode number pieces) (write mode number (pieces.map Piece.eraseText))
      ((pieces.flatMap (Piece.texts mode)).map String.toList) := by
  induction pieces generalizing number with
  | nil => exact scans_code List.not_mem_nil
  | cons piece rest ih =>
    have first := plain piece List.mem_cons_self
    have others (number : Nat) := ih number fun p hp => plain p (List.mem_cons_of_mem piece hp)
    rw [List.flatMap_cons, List.map_append]
    cases piece with
    | code text => exact (scans_code first).append (others number)
    | name field =>
      have erased : literalText mode "" = ['"', '"'] := by cases mode <;> rfl
      rw [List.map_cons, Piece.eraseText, write, write, erased]
      exact (scans_literalText strict field).append (others number)
    | value x => exact (scans_valueText strict number first).append (others (number + 1))

end Fragment

end MetadataFilter
