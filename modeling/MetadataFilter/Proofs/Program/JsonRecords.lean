import MetadataFilter.Proofs.Compiler.JsonText
import MetadataFilter.Proofs.Program.Batch

/-!
# The lines of a JSON batch are its records

A JSON record has no line feed in it, whatever it shows, so the lines of the output are the records
of the batch, and each reads back as the object that was written: an error with the number of its
line, or a fragment with the parameters that were compiled (`Program.runBatch_json_lines`).
-/

namespace MetadataFilter

namespace OutputOptions

variable {options : OutputOptions}

theorem compiledRecord_json (json : options.json = true) (compiled : CompiledFilter) :
    options.compiledRecord compiled = (options.clothe compiled).toJson.toText := by
  rw [compiledRecord, json]
  rfl

/-- The clause of a fragment has the parameters of the fragment. -/
theorem params_clothe (compiled : CompiledFilter) :
    (options.clothe compiled).params = compiled.params := by
  unfold clothe
  split <;> rfl

theorem writable_clothe {compiled : CompiledFilter} (h : compiled.Writable) :
    (options.clothe compiled).Writable := by
  constructor
  · rw [params_clothe]
    exact h.sorted
  · rw [params_clothe]
    exact h.finite

end OutputOptions

namespace Program

/-- The JSON object of a compiled filter: its fragment as it is shown, and its parameters if there
are any. -/
inductive ShowsJson (options : OutputOptions) (compiled : CompiledFilter) : Json → Prop
  | fragment (none : compiled.params = []) :
      ShowsJson options compiled
        (.object [("fragment", .string (options.shown compiled.fragment))])
  | params {members : List (String × Json)} (some : compiled.params ≠ [])
      (denoted : DenotedParams members compiled.params) :
      ShowsJson options compiled
        (.object [("fragment", .string (options.shown compiled.fragment)),
          ("params", .object members)])

/-- What a record is when it is read as JSON, for the outcome of a numbered line: an error object
exactly for a line that failed, and else the object of the compiled filter. -/
inductive Tells (options : OutputOptions) (number : Nat) :
    Except EntryError CompiledFilter → Json → Prop
  | error {e : EntryError} {message : String}
      (numbered : message = "line " ++ toString number ++ ": " ++ e.message) :
      Tells options number (.error e) (.object [("error", .string message)])
  | compiled {compiled : CompiledFilter} {value : Json} (shows : ShowsJson options compiled value) :
      Tells options number (.ok compiled) value

/-! ## One record -/

section Entry

variable {compiler : Compiler} {options : OutputOptions} {number : Nat}

theorem ofText?_compiledRecord (json : options.json = true) {compiled : CompiledFilter}
    (h : compiled.Writable) :
    Json.ofText? (options.compiledRecord compiled).toList =
      some (options.clothe compiled).toJson := by
  rw [OutputOptions.compiledRecord_json json]
  exact (OutputOptions.writable_clothe h).ofText?_toJson

theorem showsJson_toJson {compiled : CompiledFilter} (h : compiled.Writable) :
    ShowsJson options compiled (options.clothe compiled).toJson := by
  unfold CompiledFilter.toJson
  rw [options.fragment_clothe, OutputOptions.params_clothe]
  split
  · rename_i none
    exact .fragment (List.isEmpty_iff.1 none)
  · rename_i some
    refine .params (mt List.isEmpty_iff.2 some) ?_
    rw [OutputOptions.params_clothe]
    exact h.denoted

theorem writable_of_compileEntry {entry : BatchEntry} {compiled : CompiledFilter}
    (compiles : compileEntry compiler entry = .ok compiled) : compiled.Writable := by
  obtain ⟨document, -, compiles⟩ := compileEntry_eq_ok_iff.1 compiles
  exact Compiler.writable_of_compile compiles

/-- A JSON record tells the outcome of its line. -/
theorem exists_tells_entryRecord (compiler : Compiler) (json : options.json = true)
    (entry : BatchEntry) :
    ∃ value, Json.ofText? (entryRecord compiler options entry).toList = some value ∧
      Tells options entry.line (compileEntry compiler entry) value := by
  cases outcome : compileEntry compiler entry with
  | error e =>
    rw [entryRecord_of_error outcome]
    exact ⟨_, (options.isError_errorRecord _).json json, .error rfl⟩
  | ok compiled =>
    have writable := writable_of_compileEntry outcome
    rw [entryRecord_of_ok outcome]
    exact ⟨_, ofText?_compiledRecord json writable, .compiled (showsJson_toJson writable)⟩

theorem newline_not_mem_entryRecord (json : options.json = true) (entry : BatchEntry) :
    '\n' ∉ (entryRecord compiler options entry).toList := by
  cases outcome : compileEntry compiler entry with
  | error e =>
    rw [entryRecord_of_error outcome, OutputOptions.errorRecord_json json, Json.toText,
      String.toList_ofList]
    exact Json.newline_not_mem_write _
  | ok compiled =>
    rw [entryRecord_of_ok outcome, OutputOptions.compiledRecord_json json, Json.toText,
      String.toList_ofList]
    exact Json.newline_not_mem_write _

end Entry

/-! ## All records -/

theorem lines_records_json {compiler : Compiler} {options : OutputOptions}
    (json : options.json = true) (entries : List BatchEntry) :
    Text.lines (records compiler options entries).toList =
      (entries.map fun entry => (entryRecord compiler options entry).toList) ++ [[]] := by
  rw [toList_records]
  refine (Text.lines_records_iff _).2 fun record mem => ?_
  obtain ⟨entry, -, rfl⟩ := List.mem_map.1 mem
  exact newline_not_mem_entryRecord json entry

/-- **The lines of a JSON batch are its records**, one for each line of the batch that is not
blank, in their order; read as JSON, each tells the outcome of its line. Behind the last record
there is an empty line. -/
theorem runBatch_json_lines {host : Host} {source : Source} {text : String}
    (readable : host.text? source = some text) (compiler : Compiler) {options : OutputOptions}
    (json : options.json = true) :
    ∃ written failures records, runBatch host source compiler options = .ok (written, failures) ∧
      Text.lines written.toList = records ++ [[]] ∧
      List.Forall₂ (fun (line, number) record => ∃ value, Json.ofText? record = some value ∧
          Tells options number (compileEntry compiler (.ofLine line number)) value)
        (Text.numberedLines text.toList) records := by
  refine ⟨_, _, _, runBatch_eq readable compiler options, lines_records_json json _, ?_⟩
  rw [readBatch_eq, List.map_map, List.forall₂_map_right_iff, List.forall₂_same]
  rintro ⟨line, number⟩ -
  exact exists_tells_entryRecord compiler json (.ofLine line number)

/-- With `clause`: a number that stays a floating-point number, a blank line, a filter without a
fragment, and a line that is not JSON. -/
theorem runBatch_json_lines_of_clause :
    let text : String := "\x7b\"a\": 2.0\x7d\n\n\x7b\x7d\n\x7b\n"
    Host.text? {} (.inline text) = some text ∧
    ∃ written failures first second third,
      runBatch {} (.inline text) { mode := .parameterized } { clause := true, json := true } =
        .ok (written, failures) ∧
      Text.lines written.toList = [first, second, third, []] ∧
      (∃ x finite, x.toBits = 0x4000000000000000 ∧ Json.ofText? first = some (.object
        [("fragment", .string "filter <str>json_get(.metadata, \"a\") = <float64>$p0"),
          ("params", .object [("p0", .number (.float x finite))])])) ∧
      Json.ofText? second = some (.object [("fragment", .string "")]) ∧
      Json.ofText? third = some (.object [("error", .string "line 4: invalid JSON")]) := by
  intro text
  have readable : Host.text? {} (.inline text) = some text := rfl
  have json : OutputOptions.json { clause := true, json := true } = true := rfl
  obtain ⟨written, failures, records, batch, lines, each⟩ :=
    runBatch_json_lines readable { mode := .parameterized } json
  have numbered : Text.numberedLines text.toList =
      [("\x7b\"a\": 2.0\x7d".toList, 1), ("\x7b\x7d".toList, 3), ("\x7b".toList, 4)] := by
    decide
  have compiles : compileEntry { mode := .parameterized }
      (.ofLine "\x7b\"a\": 2.0\x7d".toList 1) =
        .ok ⟨"<str>json_get(.metadata, \"a\") = <float64>$p0",
          [("p0", .float (Binary64.ofBits 0x4000000000000000))]⟩ := by cbv
  have always : compileEntry { mode := .parameterized } (.ofLine "\x7b\x7d".toList 3) =
      .ok ⟨"", []⟩ := by cbv
  have fails : compileEntry { mode := .parameterized } (.ofLine "\x7b".toList 4) =
      .error .notJson := by cbv
  rw [numbered] at each
  cases each with | @cons _ first _ _ compiled others
  cases others with | @cons _ second _ _ empty others
  cases others with | @cons _ third _ _ failed none
  cases none
  obtain ⟨value, firstValue, tells⟩ := compiled
  obtain ⟨object, secondValue, tellsEmpty⟩ := empty
  obtain ⟨error, thirdValue, tellsError⟩ := failed
  simp only [compiles] at tells
  simp only [always] at tellsEmpty
  simp only [fails] at tellsError
  refine ⟨readable, written, failures, first, second, third, batch, lines, ?_, ?_, ?_⟩
  · cases tells with | compiled shows
    cases shows with
    | fragment none => cases none
    | params some denoted =>
      cases denoted with | @cons member _ _ _ head tail
      cases tail
      obtain ⟨name, value⟩ := member
      obtain ⟨rfl, denoted⟩ := head
      cases denoted with | float x finite
      exact ⟨_, finite, Binary64.toBits_ofBits _, firstValue⟩
  · cases tellsEmpty with | compiled shows
    cases shows with
    | fragment none => exact secondValue
    | params some denoted => exact absurd rfl some
  · cases tellsError with | error numbered
    rw [thirdValue, numbered]
    rfl

end Program

end MetadataFilter
