import MetadataFilter.Input.Batch
import MetadataFilter.Proofs.Text.Lines

/-!
# Numbers of lines in a batch

Lines are counted from 1, blank ones too, and only those that are not blank are entries. So a batch
can be cut at any line feed: what is behind it is a batch of its own, whose lines have later numbers
(`readBatch_append`). All else follows from this, by going from line to line
(`Text.line_induction`): where the entries are, that the numbers increase, and that carriage returns
make no difference.

`readBatch_numbers_lines` puts these together.
-/

namespace MetadataFilter

namespace BatchEntry

/-- The entry `count` lines further down. -/
def later (count : Nat) (entry : BatchEntry) : BatchEntry :=
  { entry with line := entry.line + count }

theorem ofLine?_add (number count : Nat) (line : List Char) :
    ofLine? (number + count) line = (ofLine? number line).map (later count) := by
  simp only [ofLine?]
  split <;> rfl

theorem ofLines_add (number count : Nat) (lines : List (List Char)) :
    ofLines (number + count) lines = (ofLines number lines).map (later count) := by
  induction lines generalizing number with
  | nil => rfl
  | cons line rest ih =>
    rw [ofLines, ofLines, ofLine?_add, Nat.add_right_comm, ih, List.map_append]
    cases ofLine? number line <;> rfl

theorem ofLines_append (number : Nat) (first second : List (List Char)) :
    ofLines number (first ++ second) =
      ofLines number first ++ ofLines (number + first.length) second := by
  induction first generalizing number with
  | nil => rfl
  | cons line rest ih =>
    rw [List.cons_append, ofLines, ofLines, ih, List.append_assoc, List.length_cons,
      Nat.add_right_comm, Nat.add_assoc]

end BatchEntry

/-- A text without a line feed has one line, which is an entry if it is not blank. -/
theorem readBatch_of_not_mem {line : List Char} (whole : '\n' ∉ line) :
    readBatch line =
      if line.all Text.isBlank then [] else [⟨1, Json.ofText? (Text.trim line)⟩] := by
  have blank : (Text.trim line).isEmpty = line.all Text.isBlank := by
    rw [Bool.eq_iff_iff, List.isEmpty_iff, Text.trim_eq_nil_iff]
  rw [readBatch, Text.lines_of_not_mem whole, BatchEntry.ofLines, BatchEntry.ofLine?, blank]
  split <;> rfl

/-- **A batch can be cut at any line feed.** -/
theorem readBatch_append (before after : List Char) :
    readBatch (before ++ '\n' :: after) =
      readBatch before ++ (readBatch after).map (BatchEntry.later (1 + before.count '\n')) := by
  rw [readBatch, Text.lines_append, BatchEntry.ofLines_append, Text.length_lines,
    Nat.add_comm (before.count '\n'), BatchEntry.ofLines_add]
  rfl

theorem mem_readBatch_of_not_mem {line : List Char} (whole : '\n' ∉ line) (entry : BatchEntry) :
    entry ∈ readBatch line ↔
      line.all Text.isBlank = false ∧ entry = ⟨1, Json.ofText? (Text.trim line)⟩ := by
  rw [readBatch_of_not_mem whole]
  by_cases blank : line.all Text.isBlank = true <;> simp [blank]

/-- **Each line that is not blank is an entry, with the number of the line, and nothing else
is.** -/
theorem mem_readBatch_iff (text : List Char) (entry : BatchEntry) :
    entry ∈ readBatch text ↔
      ∃ before line after, Text.LineAt text before line after ∧ line.all Text.isBlank = false ∧
        entry = ⟨1 + before.count '\n', Json.ofText? (Text.trim line)⟩ := by
  induction text using Text.line_induction generalizing entry with
  | last text whole =>
    rw [mem_readBatch_of_not_mem whole]
    constructor
    · rintro ⟨notBlank, rfl⟩
      exact ⟨[], text, [], (Text.lineAt_of_not_mem_iff whole).2 ⟨rfl, rfl, rfl⟩, notBlank, rfl⟩
    · rintro ⟨before, line, after, here, notBlank, rfl⟩
      obtain ⟨rfl, rfl, rfl⟩ := (Text.lineAt_of_not_mem_iff whole).1 here
      exact ⟨notBlank, rfl⟩
  | more first rest whole ih =>
    rw [readBatch_append, List.mem_append, mem_readBatch_of_not_mem whole, List.mem_map,
      List.count_eq_zero.2 whole]
    constructor
    · rintro (⟨notBlank, rfl⟩ | ⟨inner, mem, rfl⟩)
      · have here : Text.LineAt (first ++ '\n' :: rest) [] first ('\n' :: rest) :=
          (Text.lineAt_append_iff whole).2 (.inl ⟨rfl, rfl, rfl⟩)
        exact ⟨[], first, '\n' :: rest, here, notBlank, rfl⟩
      · obtain ⟨before, line, after, here, notBlank, rfl⟩ := (ih inner).1 mem
        have there := (Text.lineAt_append_iff whole).2 (.inr ⟨before, rfl, here⟩)
        refine ⟨first ++ '\n' :: before, line, after, there, notBlank, ?_⟩
        simp [BatchEntry.later, List.count_eq_zero.2 whole]
        omega
    · rintro ⟨before, line, after, here, notBlank, rfl⟩
      rcases (Text.lineAt_append_iff whole).1 here with ⟨rfl, rfl, rfl⟩ | ⟨before, rfl, below⟩
      · exact .inl ⟨notBlank, rfl⟩
      · refine .inr ⟨_, (ih _).2 ⟨before, line, after, below, notBlank, rfl⟩, ?_⟩
        simp [BatchEntry.later, List.count_eq_zero.2 whole]
        omega

theorem readBatch_increasing (text : List Char) :
    (readBatch text).Pairwise fun first second => first.line < second.line := by
  have single {line : List Char} (whole : '\n' ∉ line) :
      (readBatch line).Pairwise fun first second => first.line < second.line := by
    rw [readBatch_of_not_mem whole]
    split
    · exact .nil
    · exact List.pairwise_singleton _ _
  induction text using Text.line_induction with
  | last line whole => exact single whole
  | more line rest whole ih =>
    rw [readBatch_append, List.pairwise_append, List.pairwise_map]
    refine ⟨single whole, ih.imp fun less => Nat.add_lt_add_right less _, ?_⟩
    intro first here second there
    obtain ⟨-, rfl⟩ := (mem_readBatch_of_not_mem whole first).1 here
    obtain ⟨inner, mem, rfl⟩ := List.mem_map.1 there
    obtain ⟨before, -, -, -, -, rfl⟩ := (mem_readBatch_iff rest inner).1 mem
    simp only [BatchEntry.later]
    omega

/-- A carriage return at the end of a line is a blank. -/
theorem readBatch_append_return {line : List Char} (whole : '\n' ∉ line) :
    readBatch (line ++ ['\r']) = readBatch line := by
  have whole' : '\n' ∉ line ++ ['\r'] := by simp [whole]
  have blank : (line ++ ['\r']).all Text.isBlank = line.all Text.isBlank := by
    have isBlank : Text.isBlank '\r' = true := by decide
    simp [isBlank]
  rw [readBatch_of_not_mem whole, readBatch_of_not_mem whole', blank,
    Text.trim_append_blank line (by decide)]

theorem readBatch_withReturns (text : List Char) :
    readBatch (Text.withReturns text) = readBatch text := by
  induction text using Text.line_induction with
  | last line whole => rw [Text.withReturns_of_not_mem whole]
  | more line rest whole ih =>
    have count : (line ++ ['\r']).count '\n' = line.count '\n' := by simp
    rw [Text.withReturns_append, Text.withReturns_of_not_mem whole, readBatch_append,
      readBatch_append, readBatch_append_return whole, count, ih]

/-- **The lines of a batch are numbered as they stand in the text.** A text without a line feed has
at most one entry, on line 1; behind a line feed all numbers are later by the lines before it. So
the numbers increase, the entries are the lines that are not blank, a line feed at the end adds
nothing, and carriage returns before line feeds change nothing. -/
theorem readBatch_numbers_lines :
    (∀ text : List Char, '\n' ∉ text → readBatch text =
      if text.all Text.isBlank then [] else [⟨1, Json.ofText? (Text.trim text)⟩]) ∧
    (∀ before after : List Char, readBatch (before ++ '\n' :: after) =
      readBatch before ++ (readBatch after).map fun entry =>
        { entry with line := entry.line + (1 + before.count '\n') }) ∧
    (∀ text, (readBatch text).Pairwise fun first second => first.line < second.line) ∧
    (∀ text entry, entry ∈ readBatch text ↔
      ∃ before line after, Text.LineAt text before line after ∧ line.all Text.isBlank = false ∧
        entry = ⟨1 + before.count '\n', Json.ofText? (Text.trim line)⟩) ∧
    (∀ text, readBatch (text ++ ['\n']) = readBatch text) ∧
    ∀ text, readBatch (Text.withReturns text) = readBatch text := by
  refine ⟨fun text whole => readBatch_of_not_mem whole, readBatch_append, readBatch_increasing,
    mem_readBatch_iff, fun text => ?_, readBatch_withReturns⟩
  rw [readBatch_append]
  exact List.append_nil _

/-- Behind a blank line, the number of a line that is not JSON. -/
theorem readBatch_numbers_lines_behind_blank :
    let first := "\x7b\x7d\r".toList
    let blank := "\u00a0\u3000".toList
    let last := "\t\x7b".toList
    '\n' ∉ first ∧ '\n' ∉ blank ∧ '\n' ∉ last ∧
      (readBatch (first ++ '\n' :: (blank ++ '\n' :: last))).map (fun entry =>
        (entry.line, entry.document.isSome)) = [(1, true), (3, false)] := by
  intro first blank last
  have noFeed : '\n' ∉ first ∧ '\n' ∉ blank ∧ '\n' ∉ last := by decide
  obtain ⟨single, append, -⟩ := readBatch_numbers_lines
  refine ⟨noFeed.1, noFeed.2.1, noFeed.2.2, ?_⟩
  rw [append, append, single _ noFeed.1, single _ noFeed.2.1, single _ noFeed.2.2]
  decide +kernel

end MetadataFilter
