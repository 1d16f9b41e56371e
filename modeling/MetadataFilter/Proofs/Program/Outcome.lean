import MetadataFilter.Proofs.Program.JsonRecords

/-!
# What a run of the program comes to

A run that fails has written nothing, except that a batch writes the records of all its lines
before it fails for those that are errors. A run that does not fail has written its one record, or
the records of its batch (`Program.run_outcome`).

What can go wrong comes in steps: the settings, the text of the input, the document, the filter. A
batch reads each line's document and filter by itself, so only the first two steps end it early.
-/

namespace MetadataFilter.Program

/-- The settings of a run and the text of its input are these. -/
structure Given (host : Host) (arguments : Arguments) (settings : Settings) (text : String) :
    Prop where
  resolved : resolveSettings host arguments = .ok settings
  readable : host.text? arguments.source = some text

/-- The input of a run is one document, which the settings compile to this. -/
def Compiles (host : Host) (arguments : Arguments) (settings : Settings)
    (compiled : CompiledFilter) : Prop :=
  ∃ text document, Given host arguments settings text ∧
    readDocument (formatOf arguments.source) text.toList = .ok document ∧
    settings.compiler.compile document = .ok compiled

/-- A record shows a compiled filter: as its fragment or clause, or as a JSON text that reads as the
object of both the fragment and the parameters. -/
structure Shows (options : OutputOptions) (compiled : CompiledFilter) (record : String) :
    Prop where
  plain : options.json = false → record = options.shown compiled.fragment
  json : options.json = true →
    ∃ value, Json.ofText? record.toList = some value ∧ ShowsJson options compiled value

/-- How a run for a single filter ends: the filter is compiled, and its record is all that is
written, or it is not, and nothing is written. -/
inductive EndsSingle (host : Host) (arguments : Arguments) : Outcome → Prop
  | written {settings : Settings} {compiled : CompiledFilter} {record : String}
      (compiles : Compiles host arguments settings compiled)
      (shows : Shows (.ofSettings settings arguments) compiled record) :
      EndsSingle host arguments (.finished (record ++ "\n") none)
  | failed {failure : Failure} (never : ∀ settings compiled,
      ¬Compiles host arguments settings compiled) :
      EndsSingle host arguments (.finished "" (some failure))

/-- How a run for a batch ends: the settings or the input cannot be read, and nothing is written, or
every line that is not blank has its record, and the run fails for the records that are errors. -/
inductive EndsBatch (host : Host) (arguments : Arguments) : Outcome → Prop
  | failed {failure : Failure} (never : ∀ settings text, ¬Given host arguments settings text) :
      EndsBatch host arguments (.finished "" (some failure))
  | written {settings : Settings} {text : String} {records : List (String × Bool)} {errors : Nat}
      (given : Given host arguments settings text)
      (each : List.Forall₂ (fun (line, number) (record, failed) =>
        IsRecord settings.compiler (.ofSettings settings arguments) line number record failed)
        (Text.numberedLines text.toList) records)
      (count : errors = records.countP Prod.snd) :
      EndsBatch host arguments
        (.finished (String.join (records.map fun (record, _) => record ++ "\n"))
          (if errors = 0 then none else some (.batch errors)))

section Run

variable {host : Host} {arguments : Arguments} {settings : Settings} {text : String}

theorem readText_eq_ok_iff {source : Source} :
    readText host source = .ok text ↔ host.text? source = some text := by
  unfold readText
  cases host.text? source <;> simp

/-- What is given is given once. -/
theorem Given.unique {other : Settings} {text' : String}
    (given : Given host arguments settings text) (given' : Given host arguments other text') :
    settings = other ∧ text = text' :=
  ⟨Except.ok.inj (given.resolved.symm.trans given'.resolved),
    Option.some.inj (given.readable.symm.trans given'.readable)⟩

theorem Compiles.unique {other : Settings} {compiled compiled' : CompiledFilter}
    (compiles : Compiles host arguments settings compiled)
    (compiles' : Compiles host arguments other compiled') :
    settings = other ∧ compiled = compiled' := by
  obtain ⟨text, document, given, read, ok⟩ := compiles
  obtain ⟨text', document', given', read', ok'⟩ := compiles'
  obtain ⟨rfl, rfl⟩ := given.unique given'
  obtain rfl := Except.ok.inj (read.symm.trans read')
  exact ⟨rfl, Except.ok.inj (ok.symm.trans ok')⟩

theorem not_given_of_error {failure : Failure}
    (failed : resolveSettings host arguments = .error failure) :
    ¬Given host arguments settings text := by
  intro given
  rw [given.resolved] at failed
  cases failed

theorem not_given_of_unreadable (unreadable : host.text? arguments.source = none) :
    ¬Given host arguments settings text := by
  intro given
  rw [given.readable] at unreadable
  cases unreadable

/-! ## A single filter -/

theorem shows_compiledRecord {options : OutputOptions} {compiled : CompiledFilter}
    (writable : compiled.Writable) : Shows options compiled (options.compiledRecord compiled) where
  plain plain := OutputOptions.compiledRecord_plain plain compiled
  json json := ⟨_, ofText?_compiledRecord json writable, showsJson_toJson writable⟩

theorem runSingle_eq_ok_iff {source : Source} {compiler : Compiler} {options : OutputOptions}
    {written : String} :
    runSingle host source compiler options = .ok written ↔
      ∃ text document compiled, host.text? source = some text ∧
        readDocument (formatOf source) text.toList = .ok document ∧
        compiler.compile document = .ok compiled ∧
        written = options.compiledRecord compiled ++ "\n" := by
  simp only [runSingle, readFilter, bind_eq_ok_iff, mapError_eq_ok_iff, readText_eq_ok_iff]
  constructor
  · rintro ⟨document, ⟨text, readable, read⟩, compiled, compiles, finished⟩
    exact ⟨text, document, compiled, readable, read, compiles, (Except.ok.inj finished).symm⟩
  · rintro ⟨text, document, compiled, readable, read, compiles, rfl⟩
    exact ⟨document, ⟨text, readable, read⟩, compiled, compiles, rfl⟩

theorem endsSingle_of_resolved (resolved : resolveSettings host arguments = .ok settings)
    (single : arguments.batch = false) :
    EndsSingle host arguments (runArguments host arguments) := by
  simp only [runArguments, resolved, single, Bool.false_eq_true, if_false]
  split
  · next failure failed =>
    refine .failed fun other compiled => ?_
    rintro ⟨text, document, ⟨resolved', readable⟩, read, compiles⟩
    obtain rfl := Except.ok.inj (resolved.symm.trans resolved')
    have finished := failed.symm.trans
      (runSingle_eq_ok_iff.2 ⟨text, document, compiled, readable, read, compiles, rfl⟩)
    cases finished
  · next written finished =>
    obtain ⟨text, document, compiled, readable, read, compiles, rfl⟩ :=
      runSingle_eq_ok_iff.1 finished
    exact .written ⟨text, document, ⟨resolved, readable⟩, read, compiles⟩
      (shows_compiledRecord (Compiler.writable_of_compile compiles))

/-! ## A batch -/

/-- The record of a numbered line, and whether it is an error. -/
def recordOfLine (compiler : Compiler) (options : OutputOptions) :
    List Char × Nat → String × Bool
  | (line, number) => (entryRecord compiler options (.ofLine line number),
      entryFails compiler (.ofLine line number))

theorem isRecord_recordOfLine (compiler : Compiler) (options : OutputOptions)
    (lines : List (List Char × Nat)) :
    List.Forall₂ (fun (line, number) (record, failed) =>
      IsRecord compiler options line number record failed)
      lines (lines.map (recordOfLine compiler options)) := by
  rw [List.forall₂_map_right_iff, List.forall₂_same]
  rintro ⟨line, number⟩ -
  exact isRecord_entryRecord compiler options line number

theorem runBatch_of_unreadable {source : Source} (unreadable : host.text? source = none)
    (compiler : Compiler) (options : OutputOptions) :
    runBatch host source compiler options = .error (.unreadable source.label) := by
  simp only [runBatch, readText, unreadable, bind, Except.bind]

theorem endsBatch_of_resolved (resolved : resolveSettings host arguments = .ok settings)
    (batch : arguments.batch = true) :
    EndsBatch host arguments (runArguments host arguments) := by
  simp only [runArguments, resolved, batch, if_true]
  cases readable : host.text? arguments.source with
  | none =>
    rw [runBatch_of_unreadable readable]
    exact .failed fun _ _ => not_given_of_unreadable readable
  | some text =>
    have ends := EndsBatch.written ⟨resolved, readable⟩
      (isRecord_recordOfLine settings.compiler (.ofSettings settings arguments) _) rfl
    rw [List.map_map, List.countP_map] at ends
    rw [runBatch_eq readable, records_eq_join, readBatch_eq, List.map_map, List.countP_map]
    exact ends

theorem endsSingle_runArguments (single : arguments.batch = false) :
    EndsSingle host arguments (runArguments host arguments) := by
  cases resolved : resolveSettings host arguments with
  | ok settings => exact endsSingle_of_resolved resolved single
  | error failure =>
    rw [runArguments, resolved]
    refine .failed fun settings compiled => ?_
    rintro ⟨text, document, given, -⟩
    exact not_given_of_error resolved given

theorem endsBatch_runArguments (batch : arguments.batch = true) :
    EndsBatch host arguments (runArguments host arguments) := by
  cases resolved : resolveSettings host arguments with
  | ok settings => exact endsBatch_of_resolved resolved batch
  | error failure =>
    rw [runArguments, resolved]
    exact .failed fun _ _ => not_given_of_error resolved

end Run

/-- **The outcome of a run agrees with what it wrote.** For every command line that is accepted, the
run for a single filter or for a batch ends in one of its two ways; the exit code says whether it
failed, and a batch fails with the number of its errors. -/
theorem run_outcome {host : Host} {words : List String} {arguments : Arguments}
    (parsed : Arguments.parse host words = .ok arguments) :
    (arguments.batch = false → EndsSingle host arguments (run host words)) ∧
    (arguments.batch = true → EndsBatch host arguments (run host words)) ∧
    (∀ stdout failure, Outcome.exitCode (.finished stdout failure) =
      if failure.isSome then 1 else 0) ∧
    ∀ errors, Failure.chain (.batch errors) =
      ["Batch: " ++ toString errors ++ " filter(s) failed to compile"] := by
  have same : run host words = runArguments host arguments := by rw [run, parsed]
  rw [same]
  refine ⟨endsSingle_runArguments, endsBatch_runArguments, ?_, fun errors => rfl⟩
  intro stdout failure
  cases failure <;> rfl

/-- The second record of a batch is an error, and so the run fails behind both. Given alone, with
`--clause`, the first line is written as a clause. -/
theorem run_outcome_of_two_lines :
    let line : String := "\x7b\"a\": 1\x7d"
    let words : List String := ["--batch", line ++ "\n \na: 1\n"]
    (∃ arguments, Arguments.parse {} words = .ok arguments ∧ arguments.batch = true) ∧
      run {} words = .finished ("<str>json_get(.metadata, \"a\") = 1\n" ++
        "error: line 3: invalid JSON\n") (some (.batch 1)) ∧
      (run {} words).exitCode = 1 ∧
      run {} ["--clause", line] =
        .finished "filter <str>json_get(.metadata, \"a\") = 1\n" none := by
  intro line words
  have json : Json.ofText? (Text.trim line.toList) = some (.object [("a", .ofInt64 1)]) := by cbv
  -- an ending names its records only by what they say, so each is worked out from that
  have batch : (∃ arguments, Arguments.parse {} words = .ok arguments ∧ arguments.batch = true) ∧
      run {} words = .finished ("<str>json_get(.metadata, \"a\") = 1\n" ++
        "error: line 3: invalid JSON\n") (some (.batch 1)) ∧
      (run {} words).exitCode = 1 := by
    let text : String := line ++ "\n \na: 1\n"
    let arguments : Arguments := { filter := some text, batch := true }
    have parsed : Arguments.parse {} words = .ok arguments := by cbv
    have given : Given {} arguments {} text := ⟨by cbv, rfl⟩
    have lines : Text.numberedLines text.toList = [(line.toList, 1), ("a: 1".toList, 3)] := by
      decide
    have notJson : Json.ofText? (Text.trim "a: 1".toList) = none := by cbv
    have single : runSingle {} (.inline line) (Settings.compiler {})
        (.ofSettings {} arguments) = .ok "<str>json_get(.metadata, \"a\") = 1\n" := by
      rw [runSingle_inline {} _ _ json]
      cbv
    obtain ⟨-, ends, code, -⟩ := run_outcome parsed
    have ends := ends rfl
    have output : run {} words = .finished ("<str>json_get(.metadata, \"a\") = 1\n" ++
        "error: line 3: invalid JSON\n") (some (.batch 1)) := by
      generalize run {} words = outcome at ends
      cases ends with
      | failed never => exact absurd given (never _ _)
      | @written settings text' records errors given' each count =>
        obtain ⟨rfl, rfl⟩ := given.unique given'
        rw [lines] at each
        cases each with | @cons _ first _ _ firstRecord others
        cases others with | @cons _ second _ _ secondRecord none
        cases none
        obtain ⟨first, passed⟩ := first
        obtain ⟨second, failed⟩ := second
        obtain ⟨written, rfl⟩ := firstRecord.compiled {} line _ _ rfl json single
        obtain ⟨error, rfl⟩ := secondRecord.notJson notJson
        have error : second = "error: line 3: invalid JSON" := error.plain rfl
        subst count error
        rw [List.map_cons, List.map_cons, List.map_nil, String.join_cons, String.join_cons]
        dsimp only
        rw [written]
        rfl
    exact ⟨⟨arguments, parsed, rfl⟩, output, output ▸ code _ _⟩
  refine ⟨batch.1, batch.2.1, batch.2.2, ?_⟩
  let arguments : Arguments := { filter := some line, clause := true }
  have parsed : Arguments.parse {} ["--clause", line] = .ok arguments := by cbv
  have compiles : Compiles {} arguments { clause := true }
      ⟨"<str>json_get(.metadata, \"a\") = 1", []⟩ := by
    refine ⟨line, .object [("a", .ofInt64 1)], ⟨by cbv, rfl⟩, ?_, by cbv⟩
    cbv
  obtain ⟨ends, -⟩ := run_outcome parsed
  have ends := ends rfl
  generalize run {} ["--clause", line] = outcome at ends
  cases ends with
  | failed never => exact absurd compiles (never _ _)
  | written compiles' shows =>
    obtain ⟨rfl, rfl⟩ := compiles.unique compiles'
    rw [shows.plain rfl]
    rfl

end MetadataFilter.Program
