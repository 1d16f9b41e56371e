import Mathlib
import MetadataFilter.Program
import MetadataFilter.Proofs.Compiler.Accepted
import MetadataFilter.Proofs.Json.RoundTrip

/-!
# A batch is compiled line by line

The program makes one record of each line of a batch that is not blank, and what the record is
depends on the line and its number only (`Program.runBatch_pointwise`). If the line is JSON, the
record is what the program writes when it is given the line alone, or an error record with what it
fails with; a line that is not JSON has an error record, also where it is YAML. An error record is
a plain line or a JSON object (`OutputOptions.IsError`).
-/

namespace MetadataFilter

/-! ## Lines and entries -/

/-- The lines of a text that are not blank, each with its number, from 1. -/
def Text.numberedLines (text : List Char) : List (List Char × Nat) :=
  ((Text.lines text).zipIdx 1).filter fun (line, _) => !line.all Text.isBlank

namespace BatchEntry

/-- The entry of a line that is not blank. -/
def ofLine (line : List Char) (number : Nat) : BatchEntry :=
  ⟨number, Json.ofText? (Text.trim line)⟩

theorem ofLine?_eq (number : Nat) (line : List Char) :
    ofLine? number line = if line.all Text.isBlank then none else some (ofLine line number) := by
  have blank : (Text.trim line).isEmpty = line.all Text.isBlank := by
    rw [Bool.eq_iff_iff, List.isEmpty_iff, Text.trim_eq_nil_iff]
  rw [ofLine?, blank]
  rfl

theorem ofLines_eq (number : Nat) (lines : List (List Char)) :
    ofLines number lines =
      ((lines.zipIdx number).filter fun (line, _) => !line.all Text.isBlank).map
        fun (line, number) => ofLine line number := by
  induction lines generalizing number with
  | nil => rfl
  | cons line rest ih =>
    rw [ofLines, ofLine?_eq, ih, List.zipIdx_cons]
    by_cases blank : line.all Text.isBlank = true
    · rw [if_pos blank, List.filter_cons_of_neg (by simp [blank])]
      rfl
    · rw [if_neg blank, List.filter_cons_of_pos (by simp [blank])]
      rfl

end BatchEntry

theorem readBatch_eq (text : List Char) :
    readBatch text = (Text.numberedLines text).map fun (line, number) =>
      BatchEntry.ofLine line number :=
  BatchEntry.ofLines_eq 1 (Text.lines text)

/-! ## Records -/

namespace OutputOptions

/-- The record of an error: a plain line, or a JSON text that reads as an object with one key. -/
structure IsError (options : OutputOptions) (message record : String) : Prop where
  plain : options.json = false → record = "error: " ++ message
  json : options.json = true →
    Json.ofText? record.toList = some (.object [("error", .string message)])

/-- A fragment as it is shown: with `clause` the word `filter` stands before it, unless it is
empty. -/
def shown (options : OutputOptions) (fragment : String) : String :=
  if options.clause = true ∧ fragment ≠ "" then "filter " ++ fragment else fragment

variable {options : OutputOptions}

theorem errorRecord_plain (plain : options.json = false) (message : String) :
    options.errorRecord message = "error: " ++ message := by
  rw [errorRecord, plain]
  rfl

theorem errorRecord_json (json : options.json = true) (message : String) :
    options.errorRecord message = (Json.object [("error", .string message)]).toText := by
  rw [errorRecord, json]
  rfl

theorem isError_errorRecord (options : OutputOptions) (message : String) :
    options.IsError message (options.errorRecord message) where
  plain plain := errorRecord_plain plain message
  json json := by
    rw [errorRecord_json json, Json.toText, String.toList_ofList]
    refine Json.ofText?_write (.object (List.pairwise_singleton _ _) fun member mem => ?_)
    rw [List.mem_singleton.1 mem]
    exact .string _ message

theorem fragment_clothe (options : OutputOptions) (compiled : CompiledFilter) :
    (options.clothe compiled).fragment = options.shown compiled.fragment := by
  unfold clothe shown Fragment.clause?
  by_cases clause : options.clause = true
  · by_cases empty : compiled.fragment = ""
    · simp [clause, empty]
    · simp [clause, empty, String.isEmpty_iff]
  · simp [clause]

theorem compiledRecord_plain (plain : options.json = false) (compiled : CompiledFilter) :
    options.compiledRecord compiled = options.shown compiled.fragment := by
  rw [← fragment_clothe, compiledRecord, plain]
  rfl

/-- What is shown is the fragment behind a keyword that may be empty. -/
theorem exists_keyword_shown (options : OutputOptions) (fragment : String) :
    ∃ keyword ∈ ["", "filter "], options.shown fragment = keyword ++ fragment := by
  unfold shown
  split
  · exact ⟨"filter ", by simp, rfl⟩
  · exact ⟨"", by simp, String.empty_append.symm⟩

/-- A fragment is empty or begins with an accessor or a parenthesis, a clause with its keyword. -/
theorem not_error_prefix_shown (mode : Mode) (filter : Filter) :
    ¬"error: ".toList <+: (options.shown (filter.render mode).fragment).toList := by
  rintro ⟨rest, text⟩
  obtain ⟨keyword, mem, shown⟩ := options.exists_keyword_shown (filter.render mode).fragment
  rw [shown, String.toList_append, filter.render_text mode] at text
  have first := congrArg List.head? text
  rcases List.mem_cons.1 mem with rfl | mem
  · cases filter with
    | always => cases first
    | compare op field value => simp [Filter.template, Fragment.write] at first
    | combine op operands => simp [Filter.template, Fragment.write] at first
  · obtain rfl := List.mem_singleton.1 mem
    simp at first

end OutputOptions

namespace Program

/-! ## One line -/

/-- Given inline, JSON is read as JSON, whatever blanks there are around it. -/
theorem readFilter_inline (host : Host) {given : String} {document : Json}
    (json : Json.ofText? (Text.trim given.toList) = some document) :
    readFilter host (.inline given) = .ok document := by
  have notEmpty : (Text.trim given.toList).isEmpty = false := by
    cases text : Text.trim given.toList with
    | nil =>
      have empty : Json.ofText? [] = none := rfl
      rw [text, empty] at json
      cases json
    | cons c rest => rfl
  have read : readDocument .auto given.toList = .ok document := by
    simp only [readDocument, notEmpty, Bool.false_eq_true, if_false, json]
  simp only [readFilter, readText, Host.text?, formatOf, bind, Except.bind, read]
  rfl

theorem runSingle_inline (host : Host) {given : String} {document : Json} (compiler : Compiler)
    (options : OutputOptions) (json : Json.ofText? (Text.trim given.toList) = some document) :
    runSingle host (.inline given) compiler options =
      match compiler.compile document with
      | .ok compiled => .ok (options.compiledRecord compiled ++ "\n")
      | .error cause => .error (.filter "inline" cause) := by
  simp only [runSingle, readFilter_inline host json, bind, Except.bind]
  cases compiler.compile document <;> rfl

/-- The record of a numbered line beside what the program makes of the line alone, given inline
with any blanks around it. -/
structure IsRecord (compiler : Compiler) (options : OutputOptions) (line : List Char)
    (number : Nat) (record : String) (failed : Bool) : Prop where
  compiled : ∀ (host : Host) (given : String) (document : Json) (written : String),
    Text.trim given.toList = Text.trim line → Json.ofText? (Text.trim line) = some document →
    runSingle host (.inline given) compiler options = .ok written →
    record ++ "\n" = written ∧ failed = false
  refused : ∀ (host : Host) (given : String) (document : Json) (failure : Failure),
    Text.trim given.toList = Text.trim line → Json.ofText? (Text.trim line) = some document →
    runSingle host (.inline given) compiler options = .error failure →
    ∃ cause : FilterError, failure.chain.getLast? = some cause.message ∧
      failure = .filter "inline" cause ∧ compiler.compile document = .error cause ∧
      options.IsError ("line " ++ toString number ++ ": " ++ cause.message) record ∧
      failed = true
  notJson : Json.ofText? (Text.trim line) = none →
    options.IsError ("line " ++ toString number ++ ": invalid JSON") record ∧ failed = true
  plain : options.json = false → ("error: ".toList <+: record.toList ↔ failed = true)

section Entry

variable {compiler : Compiler} {options : OutputOptions} {entry : BatchEntry}

theorem entryRecord_of_ok {compiled : CompiledFilter}
    (h : compileEntry compiler entry = .ok compiled) :
    entryRecord compiler options entry = options.compiledRecord compiled := by
  rw [entryRecord, h]

theorem entryRecord_of_error {e : EntryError} (h : compileEntry compiler entry = .error e) :
    entryRecord compiler options entry =
      options.errorRecord ("line " ++ toString entry.line ++ ": " ++ e.message) := by
  rw [entryRecord, h]

theorem entryFails_of_ok {compiled : CompiledFilter}
    (h : compileEntry compiler entry = .ok compiled) : entryFails compiler entry = false := by
  rw [entryFails, h]

theorem entryFails_of_error {e : EntryError} (h : compileEntry compiler entry = .error e) :
    entryFails compiler entry = true := by
  rw [entryFails, h]

theorem compileEntry_eq_ok_iff {compiled : CompiledFilter} :
    compileEntry compiler entry = .ok compiled ↔
      ∃ document, entry.document = some document ∧ compiler.compile document = .ok compiled := by
  unfold compileEntry
  cases entry.document with
  | none => simp
  | some document => simp [mapError_eq_ok_iff]

theorem compileEntry_of_notJson (compiler : Compiler) {line : List Char} (number : Nat)
    (json : Json.ofText? (Text.trim line) = none) :
    compileEntry compiler (.ofLine line number) = .error .notJson := by
  simp only [compileEntry, BatchEntry.ofLine, json]

theorem compileEntry_of_json (compiler : Compiler) {line : List Char} (number : Nat)
    {document : Json} (json : Json.ofText? (Text.trim line) = some document) :
    compileEntry compiler (.ofLine line number) =
      (compiler.compile document).mapError EntryError.filter := by
  simp only [compileEntry, BatchEntry.ofLine, json]

theorem entryRecord_plain (plain : options.json = false) :
    "error: ".toList <+: (entryRecord compiler options entry).toList ↔
      entryFails compiler entry = true := by
  cases outcome : compileEntry compiler entry with
  | ok compiled =>
    obtain ⟨document, -, compiles⟩ := compileEntry_eq_ok_iff.1 outcome
    rw [Compiler.compile_eq_map_accept, map_eq_ok_iff] at compiles
    obtain ⟨filter, -, rfl⟩ := compiles
    rw [entryRecord_of_ok outcome, entryFails_of_ok outcome,
      OutputOptions.compiledRecord_plain plain]
    exact iff_of_false (OutputOptions.not_error_prefix_shown compiler.mode filter) nofun
  | error e =>
    rw [entryRecord_of_error outcome, entryFails_of_error outcome,
      OutputOptions.errorRecord_plain plain, String.toList_append]
    exact iff_of_true (List.prefix_append _ _) rfl

end Entry

theorem isRecord_entryRecord (compiler : Compiler) (options : OutputOptions) (line : List Char)
    (number : Nat) :
    IsRecord compiler options line number (entryRecord compiler options (.ofLine line number))
      (entryFails compiler (.ofLine line number)) where
  compiled := by
    intro host given document written blanks json single
    rw [runSingle_inline host compiler options (blanks ▸ json)] at single
    have entry := compileEntry_of_json compiler number json
    cases outcome : compiler.compile document with
    | ok compiled =>
      rw [outcome] at single entry
      rw [entryRecord_of_ok entry, entryFails_of_ok entry]
      exact ⟨Except.ok.inj single, rfl⟩
    | error cause =>
      rw [outcome] at single
      cases single
  refused := by
    intro host given document failure blanks json single
    rw [runSingle_inline host compiler options (blanks ▸ json)] at single
    have entry := compileEntry_of_json compiler number json
    cases outcome : compiler.compile document with
    | ok compiled =>
      rw [outcome] at single
      cases single
    | error cause =>
      rw [outcome] at single entry
      cases single
      rw [entryRecord_of_error entry, entryFails_of_error entry]
      exact ⟨cause, rfl, rfl, rfl, options.isError_errorRecord _, rfl⟩
  notJson := by
    intro json
    have entry := compileEntry_of_notJson compiler number json
    have message : ": invalid JSON" = ": " ++ "invalid JSON" := rfl
    rw [entryRecord_of_error entry, entryFails_of_error entry, message, ← String.append_assoc]
    exact ⟨options.isError_errorRecord _, rfl⟩
  plain := entryRecord_plain

/-! ## All lines -/

theorem records_eq_join (compiler : Compiler) (options : OutputOptions)
    (entries : List BatchEntry) :
    records compiler options entries =
      String.join (entries.map fun entry => entryRecord compiler options entry ++ "\n") := by
  induction entries with
  | nil => rfl
  | cons entry rest ih => rw [records, ih, List.map_cons, String.join_cons]

theorem toList_records (compiler : Compiler) (options : OutputOptions)
    (entries : List BatchEntry) :
    (records compiler options entries).toList =
      (entries.map fun entry => (entryRecord compiler options entry).toList).flatMap
        (· ++ ['\n']) := by
  induction entries with
  | nil => rfl
  | cons entry rest ih =>
    rw [records, String.toList_append, String.toList_append, ih]
    rfl

theorem runBatch_eq {host : Host} {source : Source} {text : String}
    (readable : host.text? source = some text) (compiler : Compiler) (options : OutputOptions) :
    runBatch host source compiler options =
      .ok (records compiler options (readBatch text.toList),
        (readBatch text.toList).countP (entryFails compiler)) := by
  simp only [runBatch, readText, readable, bind, Except.bind]
  rfl

/-- **A batch is compiled line by line.** For a compiler and output options each numbered line has
one record, which is the same in every batch; a batch is the records of its lines that are not
blank, in their order, and the number of those that failed. -/
theorem runBatch_pointwise (compiler : Compiler) (options : OutputOptions) :
    ∃ (record : List Char → Nat → String) (failed : List Char → Nat → Bool),
      (∀ line number,
        IsRecord compiler options line number (record line number) (failed line number)) ∧
      ∀ (host : Host) (source : Source) (text : String), host.text? source = some text →
        runBatch host source compiler options =
          .ok (String.join ((Text.numberedLines text.toList).map fun (line, number) =>
              record line number ++ "\n"),
            (Text.numberedLines text.toList).countP fun (line, number) => failed line number) := by
  refine ⟨fun line number => entryRecord compiler options (.ofLine line number),
    fun line number => entryFails compiler (.ofLine line number),
    isRecord_entryRecord compiler options, fun host source text readable => ?_⟩
  rw [runBatch_eq readable, records_eq_join, readBatch_eq, List.map_map, List.countP_map]
  rfl

/-- A filter, a blank line, a line that is YAML, and a filter that is refused: the records as plain
lines, and what they read as in JSON. -/
theorem runBatch_pointwise_yaml_line :
    let line : String := "\x7b\"a\": 1\x7d"
    let text : String := line ++ "\n \na: 1\n\x7b\"$or\": []\x7d\n"
    let refusal : String :=
      "line 4: invalid filter expression at filter.$or: expected at least 2 operands, got 0"
    Host.text? {} (.inline text) = some text ∧
    runBatch {} (.inline text) {} {} =
      .ok ("<str>json_get(.metadata, \"a\") = 1\n" ++ "error: line 3: invalid JSON\n" ++
        "error: " ++ refusal ++ "\n", 2) ∧
    ∃ first second third,
      runBatch {} (.inline text) {} { json := true } =
        .ok (first ++ "\n" ++ (second ++ "\n") ++ (third ++ "\n"), 2) ∧
      runSingle {} (.inline line) {} { json := true } = .ok (first ++ "\n") ∧
      Json.ofText? second.toList =
        some (.object [("error", .string "line 3: invalid JSON")]) ∧
      Json.ofText? third.toList = some (.object [("error", .string refusal)]) := by
  intro line text refusal
  have lines : Text.numberedLines text.toList =
      [(line.toList, 1), ("a: 1".toList, 3), ("\x7b\"$or\": []\x7d".toList, 4)] := by decide
  have json : Json.ofText? (Text.trim line.toList) = some (.object [("a", .ofInt64 1)]) := by cbv
  have notJson : Json.ofText? (Text.trim "a: 1".toList) = none := by cbv
  have empty : Json.ofText? (Text.trim "\x7b\"$or\": []\x7d".toList) =
      some (.object [("$or", .array [])]) := by cbv
  let compiled : CompiledFilter := ⟨"<str>json_get(.metadata, \"a\") = 1", []⟩
  have compiles : Compiler.compile {} (.object [("a", .ofInt64 1)]) = .ok compiled := by cbv
  let cause : FilterError := .invalid [.key "$or"] (.tooFewOperands 0)
  have refuses : Compiler.compile {} (.object [("$or", .array [])]) = .error cause := by cbv
  have records (options : OutputOptions) : ∃ first second third,
      runBatch {} (.inline text) {} options =
        .ok (first ++ "\n" ++ (second ++ "\n") ++ (third ++ "\n"), 2) ∧
      first ++ "\n" = options.compiledRecord compiled ++ "\n" ∧
      options.IsError "line 3: invalid JSON" second ∧ options.IsError refusal third := by
    obtain ⟨record, failed, each, batch⟩ := runBatch_pointwise {} options
    have single := runSingle_inline {} {} options json
    rw [compiles] at single
    obtain ⟨written, passed⟩ := (each _ 1).compiled {} line _ _ rfl json single
    obtain ⟨error, fails⟩ := (each _ 3).notJson notJson
    have single := runSingle_inline {} {} options empty
    rw [refuses] at single
    obtain ⟨_, -, same, -, error', fails'⟩ := (each _ 4).refused {} _ _ _ rfl empty single
    obtain ⟨-, rfl⟩ := Failure.filter.inj same
    refine ⟨_, _, _, ?_, written, error, error'⟩
    rw [batch {} (.inline text) text rfl, lines]
    simp only [List.map_cons, List.map_nil, List.countP_cons, List.countP_nil, passed, fails,
      fails', String.join_cons, String.join_nil, String.append_empty, String.append_assoc]
    rfl
  refine ⟨rfl, ?_, ?_⟩
  · obtain ⟨first, second, third, batch, written, error, error'⟩ := records {}
    rw [batch, written, error.plain rfl, error'.plain rfl]
    rfl
  · obtain ⟨first, second, third, batch, written, error, error'⟩ := records { json := true }
    refine ⟨first, second, third, batch, ?_, error.json rfl, error'.json rfl⟩
    rw [runSingle_inline {} {} _ json, compiles, written]

end Program

end MetadataFilter
