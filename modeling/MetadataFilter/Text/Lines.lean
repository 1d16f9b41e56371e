/-!
# Lines

`lines` cuts a text at every line feed; there is always at least one line. A text of records, each
with a line feed behind it, is cut into the records exactly if no record has a line feed of its own
(`lines_records_iff`).
-/

namespace MetadataFilter.Text

/-- Puts a character in front of the first line. -/
def pushFirst (c : Char) : List (List Char) → List (List Char)
  | [] => [[c]]
  | line :: rest => (c :: line) :: rest

def lines : List Char → List (List Char)
  | [] => [[]]
  | c :: rest => if c = '\n' then [] :: lines rest else pushFirst c (lines rest)

theorem lines_ne_nil (text : List Char) : lines text ≠ [] := by
  cases text with
  | nil => simp [lines]
  | cons c rest =>
    unfold lines
    split
    · simp
    · cases lines rest <;> simp [pushFirst]

theorem newline_not_mem_of_mem_lines {text line : List Char} (h : line ∈ lines text) :
    '\n' ∉ line := by
  induction text generalizing line with
  | nil =>
    obtain rfl := List.mem_singleton.1 h
    exact List.not_mem_nil
  | cons c rest ih =>
    unfold lines at h
    split at h
    · rcases List.mem_cons.1 h with rfl | h
      · exact List.not_mem_nil
      · exact ih h
    · rename_i other
      obtain ⟨first, more, split⟩ := List.exists_cons_of_ne_nil (lines_ne_nil rest)
      rw [split] at h ih
      rcases List.mem_cons.1 h with rfl | h
      · have tail : '\n' ∉ first := ih List.mem_cons_self
        simp [tail, Ne.symm other]
      · exact ih (List.mem_cons_of_mem first h)

theorem lines_append_newline {line : List Char} (h : '\n' ∉ line) (rest : List Char) :
    lines (line ++ '\n' :: rest) = line :: lines rest := by
  induction line with
  | nil => rfl
  | cons c line ih =>
    have other : c ≠ '\n' := fun eq => h (eq ▸ List.mem_cons_self)
    have tail : '\n' ∉ line := fun mem => h (List.mem_cons_of_mem c mem)
    rw [List.cons_append, lines, if_neg other, ih tail, pushFirst]

/-- Records with line feeds behind them are lines exactly if they have no line feeds in them. -/
theorem lines_records_iff (records : List (List Char)) :
    lines (records.flatMap (· ++ ['\n'])) = records ++ [[]] ↔
      ∀ record ∈ records, '\n' ∉ record := by
  constructor
  · intro h record mem
    apply newline_not_mem_of_mem_lines
    rw [h]
    exact List.mem_append_left _ mem
  · intro h
    induction records with
    | nil => rfl
    | cons record rest ih =>
      have others := ih fun other mem => h other (List.mem_cons_of_mem record mem)
      rw [List.flatMap_cons, List.append_assoc, List.singleton_append,
        lines_append_newline (h record List.mem_cons_self), others, List.cons_append]

end MetadataFilter.Text
