import MetadataFilter.Proofs.Compiler.Newlines
import MetadataFilter.Proofs.Program.Batch

/-!
# When the lines of a plain batch are its records

A plain record is the fragment of a line, or an error message with the number of the line. It is
written as it is, with a line feed behind it, so the lines of the output are the records of the
batch only where no record has a line feed of its own. That is so exactly if no text that a record
shows has one, and in particular if no key and no string of the documents has one
(`Program.runBatch_plain_lines`). A line of JSON can hold a line feed as an escape: then its record
takes up several lines of the output (`Program.runBatch_plain_split`).
-/

namespace MetadataFilter

namespace Program

variable {compiler : Compiler} {options : OutputOptions}

/-- The plain record of a line that fails. -/
def plainError (number : Nat) (message : String) : String :=
  "error: line " ++ toString number ++ ": " ++ message

/-- The record of a numbered line as plain text. -/
def plainRecord (compiler : Compiler) (options : OutputOptions) (line : List Char) (number : Nat) :
    String :=
  match Json.ofText? (Text.trim line) with
  | none => plainError number "invalid JSON"
  | some document =>
    match compiler.compile document with
    | .ok compiled => options.shown compiled.fragment
    | .error e => plainError number e.message

/-- The texts of a line that its record shows. -/
def shownTexts (compiler : Compiler) (line : List Char) : List String :=
  match Json.ofText? (Text.trim line) with
  | none => []
  | some document => compiler.shownTexts document

/-! ## One record -/

theorem errorRecord_eq_plainError (plain : options.json = false) (number : Nat)
    (message : String) :
    options.errorRecord ("line " ++ toString number ++ ": " ++ message) =
      plainError number message := by
  rw [OutputOptions.errorRecord_plain plain, plainError, ← String.append_assoc,
    ← String.append_assoc]
  rfl

theorem entryRecord_eq_plainRecord (plain : options.json = false) (line : List Char)
    (number : Nat) :
    entryRecord compiler options (.ofLine line number) =
      plainRecord compiler options line number := by
  unfold plainRecord
  cases json : Json.ofText? (Text.trim line) with
  | none =>
    rw [entryRecord_of_error (compileEntry_of_notJson compiler number json)]
    exact errorRecord_eq_plainError plain number _
  | some document =>
    have entry := compileEntry_of_json compiler number json
    cases outcome : compiler.compile document with
    | ok compiled =>
      rw [outcome] at entry
      simp only [outcome, entryRecord_of_ok entry, OutputOptions.compiledRecord_plain plain]
    | error e =>
      rw [outcome] at entry
      simp only [outcome, entryRecord_of_error entry]
      exact errorRecord_eq_plainError plain number _

theorem newline_mem_plainError (number : Nat) (message : String) :
    '\n' ∈ (plainError number message).toList ↔ '\n' ∈ message.toList := by
  simp [plainError, Fragment.newline_not_mem_toDigits]

theorem newline_mem_shown (fragment : String) :
    '\n' ∈ (options.shown fragment).toList ↔ '\n' ∈ fragment.toList := by
  obtain ⟨keyword, mem, shown⟩ := options.exists_keyword_shown fragment
  have tame : ∀ keyword ∈ ["", "filter "], '\n' ∉ keyword.toList := by decide
  rw [shown, String.toList_append, List.mem_append, or_iff_right (tame keyword mem)]

/-- A record has a line feed exactly if a text that it shows has one. -/
theorem newline_mem_plainRecord (line : List Char) (number : Nat) :
    '\n' ∈ (plainRecord compiler options line number).toList ↔
      ∃ s ∈ shownTexts compiler line, '\n' ∈ s.toList := by
  unfold plainRecord shownTexts
  cases Json.ofText? (Text.trim line) with
  | none =>
    rw [newline_mem_plainError]
    exact iff_of_false (by decide) nofun
  | some document =>
    cases outcome : compiler.compile document with
    | ok compiled =>
      simp only [outcome, newline_mem_shown, Compiler.newline_mem_fragment outcome]
    | error e =>
      simp only [outcome, newline_mem_plainError, Compiler.newline_mem_message outcome]

/-! ## All records -/

/-- The plain records of a text that is a batch, in their order. -/
def plainRecords (compiler : Compiler) (options : OutputOptions) (text : List Char) :
    List (List Char) :=
  (Text.numberedLines text).map fun (line, number) =>
    (plainRecord compiler options line number).toList

theorem records_toList (plain : options.json = false) (text : List Char) :
    (records compiler options (readBatch text)).toList =
      (plainRecords compiler options text).flatMap (· ++ ['\n']) := by
  rw [toList_records, readBatch_eq, plainRecords, List.map_map]
  simp only [Function.comp_def, entryRecord_eq_plainRecord plain]

theorem newline_not_mem_plainRecords_iff (text : List Char) :
    (∀ record ∈ plainRecords compiler options text, '\n' ∉ record) ↔
      ∀ line ∈ Text.numberedLines text, ∀ s ∈ shownTexts compiler line.1, '\n' ∉ s.toList := by
  simp only [plainRecords, List.forall_mem_map, newline_mem_plainRecord, not_exists, not_and]

/-- **The lines of a plain batch are its records exactly if no record shows a text with a line
feed**, as is so if the documents have no such key or string. Behind the last record there is an
empty line. -/
theorem runBatch_plain_lines {host : Host} {source : Source} {text : String}
    (readable : host.text? source = some text) (compiler : Compiler) {options : OutputOptions}
    (plain : options.json = false) :
    ∃ written failures, runBatch host source compiler options = .ok (written, failures) ∧
      (Text.lines written.toList = plainRecords compiler options text.toList ++ [[]] ↔
        ∀ line ∈ Text.numberedLines text.toList, ∀ s ∈ shownTexts compiler line.1,
          '\n' ∉ s.toList) ∧
      ((∀ line ∈ Text.numberedLines text.toList, ∀ document,
          Json.ofText? (Text.trim line.1) = some document →
          ∀ s ∈ document.texts, '\n' ∉ s.toList) →
        Text.lines written.toList = plainRecords compiler options text.toList ++ [[]]) := by
  refine ⟨_, _, runBatch_eq readable compiler options, ?_⟩
  have exactly := (Text.lines_records_iff (plainRecords compiler options text.toList)).trans
    (newline_not_mem_plainRecords_iff text.toList)
  rw [records_toList plain]
  refine ⟨exactly, fun tame => exactly.2 fun line mem => ?_⟩
  intro s shown
  rw [shownTexts] at shown
  cases json : Json.ofText? (Text.trim line.1) with
  | none =>
    rw [json] at shown
    cases shown
  | some document =>
    rw [json] at shown
    exact compiler.newline_not_mem_shownTexts (tame line mem document json) s shown

/-- A line feed in a string that is a parameter, and a line that is not JSON. -/
theorem runBatch_plain_lines_of_parameter :
    let text : String := "\x7b\"a\": \"x\\ny\"\x7d\n\x7b\n"
    Host.text? {} (.inline text) = some text ∧ OutputOptions.json {} = false ∧
    ∃ written failures,
      runBatch {} (.inline text) { mode := .parameterized } {} = .ok (written, failures) ∧
      Text.lines written.toList =
        ["<str>json_get(.metadata, \"a\") = <str>$p0".toList,
          "error: line 2: invalid JSON".toList, []] := by
  intro text
  have readable : Host.text? {} (.inline text) = some text := rfl
  have plain : OutputOptions.json {} = false := rfl
  obtain ⟨written, failures, batch, exactly, -⟩ :=
    runBatch_plain_lines readable { mode := .parameterized } plain
  have shown : (Text.numberedLines text.toList).flatMap
      (fun line => shownTexts { mode := .parameterized } line.1) = ["a"] := by cbv
  have tame : ∀ s ∈ ["a"], '\n' ∉ s.toList := by decide
  refine ⟨readable, plain, written, failures, batch, ?_⟩
  rw [exactly.2 fun line mem s here => tame s (shown ▸ List.mem_flatMap.2 ⟨line, mem, here⟩)]
  cbv

/-- A line with an escaped line feed in a string: its record is cut in two. -/
theorem runBatch_plain_split :
    let text : String := "\x7b\"a\": \"x\\ny\"\x7d\n"
    Text.numberedLines text.toList = [("\x7b\"a\": \"x\\ny\"\x7d".toList, 1)] ∧
    ∃ written, runBatch {} (.inline text) { mode := .escaped } {} = .ok (written, 0) ∧
      Text.lines written.toList =
        ["<str>json_get(.metadata, \"a\") = \"x".toList, "y\"".toList, []] := by
  refine ⟨by decide, "<str>json_get(.metadata, \"a\") = \"x\ny\"\n", ?_, by decide⟩
  cbv

end Program

end MetadataFilter
