import MetadataFilter.Proofs.Text.Stops
import MetadataFilter.Text.Blank
import MetadataFilter.Text.Lines

/-!
# Lines of a text

A text is one line, or a line, a line feed and another text (`Text.line_induction`); the lines of
the whole are those of its parts (`Text.lines_append`). `Text.LineAt` says where a line stands in a
text without cutting the text up. A carriage return at the end of a line is one of the blanks that
trimming drops.
-/

namespace MetadataFilter.Text

theorem pushFirst_append (c : Char) {first : List (List Char)} (h : first ≠ [])
    (second : List (List Char)) : pushFirst c (first ++ second) = pushFirst c first ++ second := by
  cases first with
  | nil => exact absurd rfl h
  | cons line rest => rfl

/-- **A line feed separates lines**, whatever there is before and behind it. -/
theorem lines_append (before after : List Char) :
    lines (before ++ '\n' :: after) = lines before ++ lines after := by
  induction before with
  | nil => rfl
  | cons c before ih =>
    rw [List.cons_append, lines, lines, ih]
    split
    · rfl
    · exact pushFirst_append c (lines_ne_nil before) (lines after)

theorem lines_of_not_mem {text : List Char} (whole : '\n' ∉ text) : lines text = [text] := by
  induction text with
  | nil => rfl
  | cons c text ih =>
    have other : c ≠ '\n' := fun same => whole (same ▸ List.mem_cons_self)
    rw [lines, if_neg other, ih fun mem => whole (List.mem_cons_of_mem c mem), pushFirst]

/-- A text is one line, or a line before a line feed and a text behind it. -/
theorem line_induction {motive : List Char → Prop} (last : ∀ line, '\n' ∉ line → motive line)
    (more : ∀ line rest, '\n' ∉ line → motive rest → motive (line ++ '\n' :: rest)) :
    ∀ text, motive text := by
  intro text
  generalize length : text.length = n
  induction n using Nat.strongRecOn generalizing text with
  | ind n ih =>
    by_cases newline : '\n' ∈ text
    · obtain ⟨line, rest, rfl, whole⟩ := List.eq_append_cons_of_mem newline
      refine more line rest whole (ih rest.length ?_ rest rfl)
      rw [← length, List.length_append, List.length_cons]
      omega
    · exact last text newline

theorem length_lines (text : List Char) : (lines text).length = text.count '\n' + 1 := by
  induction text using line_induction with
  | last line whole =>
    rw [lines_of_not_mem whole, List.count_eq_zero.2 whole, List.length_singleton]
  | more line rest whole ih =>
    rw [lines_append, lines_of_not_mem whole, List.length_append, ih, List.count_append,
      List.count_eq_zero.2 whole, List.count_cons_self, List.length_singleton]
    omega

/-! ## Where a line stands -/

/-- A line of the text, with what is before and behind it. -/
structure LineAt (text before line after : List Char) : Prop where
  text_eq : text = before ++ (line ++ after)
  whole : '\n' ∉ line
  starts : before = [] ∨ ∃ earlier, before = earlier ++ ['\n']
  ends : after = [] ∨ ∃ later, after = '\n' :: later

theorem lineAt_of_not_mem_iff {text before line after : List Char} (single : '\n' ∉ text) :
    LineAt text before line after ↔ before = [] ∧ line = text ∧ after = [] := by
  constructor
  · rintro ⟨rfl, whole, rfl | ⟨earlier, rfl⟩, rfl | ⟨later, rfl⟩⟩
    · simp
    · simp at single
    · simp at single
    · simp at single
  · rintro ⟨rfl, rfl, rfl⟩
    exact ⟨by simp, single, .inl rfl, .inl rfl⟩

/-- A line of a text is the first one, or a line of the text behind the first line feed. -/
theorem lineAt_append_iff {first rest before line after : List Char} (single : '\n' ∉ first) :
    LineAt (first ++ '\n' :: rest) before line after ↔
      (before = [] ∧ line = first ∧ after = '\n' :: rest) ∨
      ∃ inner, before = first ++ '\n' :: inner ∧ LineAt rest inner line after := by
  constructor
  · rintro ⟨text, whole, rfl | ⟨earlier, rfl⟩, ends⟩
    · left
      rcases ends with rfl | ⟨later, rfl⟩
      · rw [List.nil_append, List.append_nil] at text
        exact absurd (text ▸ List.mem_append_right first List.mem_cons_self) whole
      · obtain ⟨rfl, rfl⟩ := cut_unique single whole text.symm
        exact ⟨rfl, rfl, rfl⟩
    · right
      obtain ⟨head, inner, split, whole'⟩ :=
        List.eq_append_cons_of_mem (List.mem_append_right earlier (List.mem_singleton_self '\n'))
      rw [split, List.append_assoc, List.cons_append] at text
      obtain ⟨rfl, rfl⟩ := cut_unique single whole' text.symm
      refine ⟨inner, split, rfl, whole, ?_, ends⟩
      rcases List.eq_nil_or_concat inner with rfl | ⟨init, c, rfl⟩
      · exact .inl rfl
      · -- both sides end with one character
        rw [List.concat_eq_append, ← List.cons_append, ← List.append_assoc] at split
        obtain rfl : '\n' = c := by simpa using (List.append_inj' split rfl).2
        exact .inr ⟨init, List.concat_eq_append⟩
  · rintro (⟨rfl, rfl, rfl⟩ | ⟨inner, rfl, below⟩)
    · exact ⟨rfl, single, .inl rfl, .inr ⟨rest, rfl⟩⟩
    · refine ⟨by simp [below.text_eq], below.whole, .inr ?_, below.ends⟩
      rcases below.starts with rfl | ⟨earlier, rfl⟩
      · exact ⟨first, rfl⟩
      · exact ⟨first ++ '\n' :: earlier, by simp⟩

/-! ## Carriage returns -/

/-- The text with a carriage return before each line feed. -/
def withReturns (text : List Char) : List Char :=
  text.flatMap fun c => if c = '\n' then ['\r', '\n'] else [c]

theorem withReturns_of_not_mem {line : List Char} (whole : '\n' ∉ line) :
    withReturns line = line := by
  induction line with
  | nil => rfl
  | cons c line ih =>
    have other : c ≠ '\n' := fun same => whole (same ▸ List.mem_cons_self)
    rw [withReturns, List.flatMap_cons, if_neg other]
    exact congrArg (c :: ·) (ih fun mem => whole (List.mem_cons_of_mem c mem))

theorem withReturns_append (before after : List Char) :
    withReturns (before ++ '\n' :: after) =
      (withReturns before ++ ['\r']) ++ '\n' :: withReturns after := by
  simp [withReturns]

/-- A blank behind a text is trimmed. -/
theorem trim_append_blank (text : List Char) {c : Char} (blank : isBlank c = true) :
    trim (text ++ [c]) = trim text := by
  have fromEnd (text : List Char) : trimEnd (text ++ [c]) = trimEnd text := by
    simp [trimEnd, blank]
  by_cases all : text.all isBlank = true
  · have all' : (text ++ [c]).all isBlank = true := by simp_all
    rw [(trim_eq_nil_iff text).2 all, (trim_eq_nil_iff _).2 all']
  · rw [trim, trim, ← fromEnd (text.dropWhile isBlank), List.dropWhile_append, if_neg]
    simpa [dropWhile_isBlank_eq_nil_iff] using all

end MetadataFilter.Text
