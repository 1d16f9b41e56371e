import Mathlib.Data.List.Induction
import MetadataFilter.Proofs.Document.Texts
import MetadataFilter.Proofs.Filter.Place

/-!
# Line feeds in fragments and messages

Wording, operators and numbers have no line feeds. So a fragment has one exactly if a text that it
shows has one (`Filter.newline_mem_render`), and the message of an error exactly if a key that it
names has one (`FilterError.newline_mem_message`). Escaping keeps line feeds as they are.
-/

namespace MetadataFilter

namespace Fragment

/-! ## Scalars -/

theorem newline_mem_escape (text : List Char) : '\n' ∈ escape text ↔ '\n' ∈ text := by
  induction text with
  | nil => exact Iff.rfl
  | cons c text ih =>
    have first : '\n' ∈ escapeChar c ↔ '\n' = c := by
      unfold escapeChar
      split <;> simp
    rw [escape_cons, List.mem_append, first, ih, List.mem_cons]

theorem newline_mem_literalText (mode : Mode) (text : String) :
    '\n' ∈ literalText mode text ↔ '\n' ∈ text.toList := by
  unfold literalText
  split <;> simp [newline_mem_escape]

theorem newline_not_mem_toDigits (n : Nat) : '\n' ∉ Nat.toDigits 10 n :=
  fun mem => absurd (isDigit_of_mem_toDigits mem) (by decide)

theorem newline_not_mem_intText (n : Int) : '\n' ∉ intText n := by
  intro mem
  have number := intText_number n '\n' mem
  revert number
  decide

theorem newline_not_mem_floatText (x : Binary64) : '\n' ∉ floatText x := by
  by_cases finite : x.isFinite = true
  · exact fun mem => absurd (floatText_number finite '\n' mem) (by decide)
  have special : x.isNaN = true ∨ x.isNaN = false ∧ x.isInfinite = true := by
    have exponent : x.exponent = 2047 := by simpa [Binary64.isFinite] using finite
    by_cases fraction : x.fraction = 0 <;>
      simp [Binary64.isNaN, Binary64.isInfinite, exponent, fraction]
  rw [floatText]
  rcases special with nan | ⟨notNaN, infinite⟩
  · rw [if_pos nan]
    decide
  · rw [if_neg (by simp [notNaN]), if_pos infinite]
    cases x.negative <;> decide

theorem newline_mem_scalarText (mode : Mode) (x : Scalar) :
    '\n' ∈ scalarText mode x ↔ ∃ s ∈ x.texts, '\n' ∈ s.toList := by
  cases x with
  | string s => simp [scalarText, Scalar.texts, newline_mem_literalText]
  | integer n => simp [scalarText, Scalar.texts, newline_not_mem_intText]
  | float x => simp [scalarText, Scalar.texts, newline_not_mem_floatText]
  | bool b => cases b <;> simp [scalarText, Scalar.texts]

theorem newline_not_mem_placeholder (number : Nat) (x : Scalar) : '\n' ∉ placeholder number x :=
  fun mem => absurd (mem_placeholder mem) (by decide)

end Fragment

open Fragment

/-! ## Templates -/

/-- The legacy mode shows the texts that the escaped mode shows. -/
def Mode.shownAs : Mode → Mode
  | .legacy | .escaped => .escaped
  | .parameterized => .parameterized

namespace Fragment

theorem newline_mem_valueText (mode : Mode) (number : Nat) (x : Scalar) :
    '\n' ∈ valueText mode number x ↔
      ∃ s ∈ (Piece.value x).texts mode.shownAs, '\n' ∈ s.toList := by
  cases mode with
  | legacy | escaped => exact newline_mem_scalarText _ x
  | parameterized => exact iff_of_false (newline_not_mem_placeholder number x) nofun

theorem newline_not_mem_codeTexts {text : List Char} (h : text ∈ codeTexts) : '\n' ∉ text := by
  revert text
  decide

theorem newline_mem_write (mode : Mode) (number : Nat) {pieces : List Piece}
    (code : ∀ text, .code text ∈ pieces → '\n' ∉ text) :
    '\n' ∈ write mode number pieces ↔
      ∃ s ∈ pieces.flatMap (Piece.texts mode.shownAs), '\n' ∈ s.toList := by
  induction pieces generalizing number with
  | nil => exact iff_of_false List.not_mem_nil nofun
  | cons piece rest ih =>
    have others (number : Nat) := ih number fun text h => code text (List.mem_cons_of_mem piece h)
    simp only [List.flatMap_cons, List.mem_append, or_and_right, exists_or]
    cases piece with
    | code text =>
      have none : '\n' ∉ text := code text List.mem_cons_self
      simp [write, Piece.texts, none, others number]
    | name field =>
      simp [write, Piece.texts, newline_mem_literalText, others number]
    | value x => rw [write, List.mem_append, newline_mem_valueText, others (number + 1)]

end Fragment

/-- **A fragment has a line feed exactly if a text that it shows has one.** -/
theorem Filter.newline_mem_render (mode : Mode) (filter : Filter) :
    '\n' ∈ (filter.render mode).fragment.toList ↔
      ∃ s ∈ filter.quotedTexts mode.shownAs, '\n' ∈ s.toList := by
  have code : ∀ text, .code text ∈ filter.template → '\n' ∉ text :=
    fun text h => newline_not_mem_codeTexts (filter.code_mem_template h)
  rw [filter.render_text mode, newline_mem_write mode 0 code, filter.template_texts]

/-! ## Messages -/

theorem Path.newline_mem_text (path : Path) :
    '\n' ∈ path.text.toList ↔ ∃ key ∈ path.keys, '\n' ∈ key.toList := by
  induction path using List.reverseRecOn with
  | nil => decide
  | append_singleton path segment ih =>
    rw [Path.text_append_singleton, String.toList_append, List.mem_append, ih, keys_append]
    simp only [List.mem_append, or_and_right, exists_or]
    cases segment with
    | key name => simp [Segment.text, keys]
    | index position => simp [Segment.text, keys, newline_not_mem_toDigits]

theorem newline_mem_intercalate (keys : List String) :
    '\n' ∈ (String.intercalate ", " keys).toList ↔ ∃ key ∈ keys, '\n' ∈ key.toList := by
  match keys with
  | [] => decide
  | [key] => simp
  | key :: next :: rest =>
    have others := newline_mem_intercalate (next :: rest)
    rw [String.intercalate_cons_cons, String.toList_append, List.mem_append, others]
    simp

theorem Reason.newline_mem_message (reason : Reason) :
    '\n' ∈ reason.message.toList ↔ ∃ key ∈ reason.keys, '\n' ∈ key.toList := by
  have kind (found : Json.Kind) : '\n' ∉ found.name.toList := by cases found <;> decide
  have keyword (op : CompareOp) : '\n' ∉ op.keyword.toList := by cases op <;> decide
  have family (family : Family) : '\n' ∉ family.name.toList := by cases family <;> decide
  unfold message keys
  cases reason with
  | severalKeys keys =>
    rw [String.toList_append, List.mem_append, newline_mem_intercalate]
    exact or_iff_right (by decide)
  | _ =>
    simp [kind, keyword, family, newline_not_mem_toDigits, newline_not_mem_intText,
      newline_not_mem_floatText]

/-- **A message has a line feed exactly if a key that it names has one.** -/
theorem FilterError.newline_mem_message (e : FilterError) :
    '\n' ∈ e.message.toList ↔ ∃ key ∈ e.keys, '\n' ∈ key.toList := by
  unfold message keys
  cases e with
  | depthExceeded limit => simp [newline_not_mem_toDigits]
  | invalid path reason =>
    simp [path.newline_mem_text, reason.newline_mem_message, or_and_right, exists_or]

/-! ## Answers -/

theorem Filter.quotedTexts_subset (mode : Mode) (filter : Filter) :
    filter.quotedTexts mode ⊆ filter.quotedTexts .escaped := by
  rw [← filter.template_texts, ← filter.template_texts]
  intro s mem
  obtain ⟨piece, here, mem⟩ := List.mem_flatMap.1 mem
  refine List.mem_flatMap.2 ⟨piece, here, ?_⟩
  cases piece with
  | code text => exact mem
  | name field => exact mem
  | value x =>
    by_cases escaped : mode = .escaped
    · exact escaped ▸ mem
    · rw [Piece.texts, if_neg escaped] at mem
      cases mem

namespace Compiler

/-- The texts that the answer to a document shows: those of the fragment, or the keys that the
error names. -/
def shownTexts (compiler : Compiler) (document : Json) : List String :=
  match compiler.accept document with
  | .ok filter => filter.quotedTexts compiler.mode.shownAs
  | .error e => e.keys

theorem newline_mem_fragment {compiler : Compiler} {document : Json} {compiled : CompiledFilter}
    (h : compiler.compile document = .ok compiled) :
    '\n' ∈ compiled.fragment.toList ↔ ∃ s ∈ compiler.shownTexts document, '\n' ∈ s.toList := by
  rw [compile_eq_map_accept, map_eq_ok_iff] at h
  obtain ⟨filter, accepted, rfl⟩ := h
  rw [shownTexts, accepted]
  exact filter.newline_mem_render compiler.mode

theorem newline_mem_message {compiler : Compiler} {document : Json} {e : FilterError}
    (h : compiler.compile document = .error e) :
    '\n' ∈ e.message.toList ↔ ∃ s ∈ compiler.shownTexts document, '\n' ∈ s.toList := by
  rw [compile_eq_map_accept] at h
  cases accepted : compiler.accept document with
  | ok filter =>
    rw [accepted] at h
    cases h
  | error cause =>
    rw [accepted] at h
    cases h
    rw [shownTexts, accepted]
    exact e.newline_mem_message

/-- A document without line feeds in its keys and strings has an answer without line feeds. -/
theorem newline_not_mem_shownTexts (compiler : Compiler) {document : Json}
    (h : ∀ s ∈ document.texts, '\n' ∉ s.toList) :
    ∀ s ∈ compiler.shownTexts document, '\n' ∉ s.toList := by
  intro s shown
  have origin := compiler.accept_texts document
  rw [shownTexts] at shown
  cases accepted : compiler.accept document with
  | ok filter =>
    rw [accepted] at origin shown
    exact h s (origin (filter.quotedTexts_subset _ shown))
  | error e =>
    rw [accepted] at origin shown
    rcases origin with origin | origin
    · exact h s (origin shown)
    · have keywords : ∀ key ∈ operatorKeywords, '\n' ∉ key.toList := by decide
      exact keywords s (origin shown)

end Compiler

end MetadataFilter
