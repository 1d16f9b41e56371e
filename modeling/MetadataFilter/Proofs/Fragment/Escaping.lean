import MetadataFilter.Fragment.Quoted

/-!
# Escaped text

Escaping goes over a text part by part and can be undone, in a literal with anything behind it
(`Fragment.escape_encodes`): without the backslashes before its escaped characters, escaped text is
the text again, and a literal with escaped text in it ends at the quote behind that text.

`Closes` are the rules of a literal, which the reader of literals follows
(`closeLiteral?_eq_some_iff`). By the rules a literal that has ended does not change with what is
behind it (`closeLiteral?_append`). So no beginning of escaped text ends a literal: all of it with a
quote behind it would end there too, and it ends with that quote.
-/

namespace MetadataFilter.Fragment

theorem ne_of_isSpecial_eq_false {c : Char} (notSpecial : isSpecial c = false) :
    c ≠ '\\' ∧ c ≠ '"' := by
  simpa [isSpecial] using notSpecial

/-- The text without the backslash before each escaped character. -/
def unescape : List Char → List Char
  | [] => []
  | '\\' :: c :: rest => c :: unescape rest
  | c :: rest => c :: unescape rest

theorem unescape_escapeChar (c : Char) (rest : List Char) :
    unescape (escapeChar c ++ rest) = c :: unescape rest := by
  by_cases special : isSpecial c = true
  · rw [escapeChar, if_pos special]
    rfl
  · obtain ⟨notBackslash, -⟩ := ne_of_isSpecial_eq_false (Bool.eq_false_iff.2 special)
    rw [escapeChar, if_neg special, List.singleton_append, unescape]
    exact fun _ _ backslash _ => notBackslash backslash

theorem unescape_escape (text : List Char) : unescape (escape text) = text := by
  induction text with
  | nil => rfl
  | cons c text ih => rw [escape_cons, unescape_escapeChar, ih]

/-! ## What is escaped -/

/-- There is one backslash for each special character. -/
theorem length_escape (text : List Char) :
    (escape text).length = text.length + text.countP isSpecial := by
  induction text with
  | nil => rfl
  | cons c text ih =>
    rw [escape_cons, List.length_append, ih, List.length_cons, List.countP_cons, escapeChar]
    split
    · rw [List.length_cons, List.length_singleton]
      omega
    · rw [List.length_singleton]
      omega

/-- Only a text with nothing to escape comes out as it is. -/
theorem escape_eq_self_iff (text : List Char) :
    escape text = text ↔ text.any isSpecial = false := by
  constructor
  · intro same
    have length := length_escape text
    rw [same] at length
    have none : text.countP isSpecial = 0 := by omega
    exact List.any_eq_false.2 (List.countP_eq_zero.1 none)
  · intro plain
    rw [escape_eq_flatMap, flatMap_escapeChar_of_plain plain]

/-! ## Where a literal ends -/

/-- From inside a literal on, the text has these contents up to the quote that closes the
literal. -/
inductive Closes : (text contents after : List Char) → Prop
  | quote (after : List Char) : Closes ('"' :: after) [] after
  | escaped (c : Char) {rest contents after : List Char} (closes : Closes rest contents after) :
      Closes ('\\' :: c :: rest) (c :: contents) after
  | plain {c : Char} (notSpecial : isSpecial c = false) {rest contents after : List Char}
      (closes : Closes rest contents after) : Closes (c :: rest) (c :: contents) after

/-- The reader of literals follows the rules. -/
theorem closeLiteral?_eq_some_iff {text contents after : List Char} :
    closeLiteral? text = some (contents, after) ↔ Closes text contents after := by
  constructor
  · intro read
    fun_induction closeLiteral? text generalizing contents after with
    | case1 => cases read
    | case2 rest =>
      cases read
      exact .quote rest
    | case3 c rest ih =>
      obtain ⟨⟨inner, behind⟩, read, rfl, rfl⟩ := Option.map_eq_some_iff.1 read
      exact .escaped c (ih read)
    | case4 c rest notQuote takesNone ih =>
      obtain ⟨⟨inner, behind⟩, read, rfl, rfl⟩ := Option.map_eq_some_iff.1 read
      have notBackslash : c ≠ '\\' := by
        -- a backslash that takes no character with it is the last one, so no quote is left
        rintro rfl
        cases rest with
        | nil => cases read
        | cons d others => exact takesNone d others rfl rfl
      have quote : c ≠ '"' := notQuote
      exact .plain (by simp [isSpecial, notBackslash, quote]) (ih read)
  · intro closes
    induction closes with
    | quote after => rw [closeLiteral?]
    | escaped c closes ih =>
      rw [closeLiteral?, ih]
      rfl
    | plain notSpecial closes ih =>
      obtain ⟨notBackslash, notQuote⟩ := ne_of_isSpecial_eq_false notSpecial
      rw [closeLiteral?, ih]
      · rfl
      · exact notQuote
      · exact fun _ _ backslash => absurd backslash notBackslash

/-- A literal that has ended does not change with what is behind it. -/
theorem closeLiteral?_append {text contents after : List Char}
    (h : closeLiteral? text = some (contents, after)) (more : List Char) :
    closeLiteral? (text ++ more) = some (contents, after ++ more) := by
  rw [closeLiteral?_eq_some_iff] at h ⊢
  induction h with
  | quote after => exact .quote (after ++ more)
  | escaped c closes ih => exact .escaped c ih
  | plain notSpecial closes ih => exact .plain notSpecial ih

theorem closeLiteral?_take_escape (text : List Char) (n : Nat) :
    closeLiteral? ((escape text).take n) = none := by
  rw [Option.eq_none_iff_forall_ne_some]
  rintro ⟨contents, after⟩ read
  have whole := closeLiteral?_append read ((escape text).drop n ++ ['"'])
  rw [← List.append_assoc, List.take_append_drop, closeLiteral?_escape] at whole
  simp at whole

/-- **Escaped text reads back wherever it stands.** Escaping goes over the parts of a text one by
one and is undone by taking the backslashes away. A literal with escaped text in it ends at the
quote behind that text and not before, with the text as its contents. Only a text with nothing to
escape comes out as it is. -/
theorem escape_encodes (s t rest : List Char) :
    escape (s ++ t) = escape s ++ escape t ∧
    unescape (escape s) = s ∧
    closeLiteral? (escape s ++ '"' :: rest) = some (s, rest) ∧
    (∀ n, closeLiteral? ((escape s).take n) = none) ∧
    (escape s = s ↔ s.any isSpecial = false) :=
  ⟨escape_append s t, unescape_escape s, closeLiteral?_escape s rest, closeLiteral?_take_escape s,
    escape_eq_self_iff s⟩

/-- A backslash at the end of a text does not take the quote behind it. -/
example : closeLiteral? (escape "C:\\".toList ++ "\" or \"".toList) =
    some ("C:\\".toList, " or \"".toList) := by decide

end MetadataFilter.Fragment
