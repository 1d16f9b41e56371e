import MetadataFilter.Proofs.Fragment.ParameterNames
import MetadataFilter.Proofs.Program.JsonRecords

/-!
# A parameterized fragment leaves the program with its values

In the parameterized mode the program writes JSON, whatever set the mode: the command line, the
environment or the settings file. Each line that it writes is an object, and if the object has a
fragment, it has the values of the parameters in it, and of no other
(`Program.run_parameterized_lines`).
-/

namespace MetadataFilter

open Fragment

/-- The record is a JSON object. If it has a fragment, the names behind the dollar signs outside
the literals of the fragment are the names of its parameters, each once; without parameters there
are no names. -/
def CarriesParameters (record : List Char) : Prop :=
  ∃ members, Json.ofText? record = some (.object members) ∧
    ∀ value, members.lookup "fragment" = some value →
      ∃ fragment names, value = .string fragment ∧
        names = dollarNames (scan fragment.toList).code ∧ names.Nodup ∧
        (members.lookup "params" = none ∧ names = [] ∨
          ∃ params, members.lookup "params" = some (.object params) ∧
            names.Perm (params.map Prod.fst))

theorem DenotedParams.names_eq {members : List (String × Json)} {params : List (String × Scalar)}
    (h : DenotedParams members params) : members.map Prod.fst = params.map Prod.fst := by
  induction h with
  | nil => rfl
  | cons head _ ih => rw [List.map_cons, List.map_cons, head.1, ih]

/-- The names in what is shown of a compiled filter are the names of its parameters. -/
theorem OutputOptions.dollarNames_shown (options : OutputOptions) {limit : Nat} {document : Json}
    {compiled : CompiledFilter}
    (compiles : Compiler.compile ⟨.parameterized, limit⟩ document = .ok compiled) :
    (dollarNames (scan (options.shown compiled.fragment).toList).code).Nodup ∧
    (dollarNames (scan (options.shown compiled.fragment).toList).code).Perm
      (compiled.params.map Prod.fst) := by
  obtain ⟨filter, accepted, rfl⟩ := Compiler.exists_accept_of_compile compiles
  have read := (Compiler.accept_eq_ok_iff.1 accepted).1
  have plain := Filter.plain_of_always_or_wellFormed (Filter.always_or_wellFormed_of_ofJson read)
  obtain ⟨keyword, mem, shown⟩ :=
    options.exists_keyword_shown (filter.render .parameterized).fragment
  have tame : ∀ keyword ∈ ["", "filter "], '"' ∉ keyword.toList ∧ '$' ∉ keyword.toList := by
    decide
  obtain ⟨noQuote, noDollar⟩ := tame keyword mem
  rw [shown, String.toList_append]
  refine ⟨?_, Filter.dollarNames_perm_params plain noQuote noDollar⟩
  rw [Filter.dollarNames_render plain noQuote noDollar]
  exact parameterNames_nodup _ _

namespace Program

theorem carriesParameters_of_showsJson {options : OutputOptions} {compiled : CompiledFilter}
    {record : List Char} {value : Json} (read : Json.ofText? record = some value)
    (shows : ShowsJson options compiled value) {limit : Nat} {document : Json}
    (compiles : Compiler.compile ⟨.parameterized, limit⟩ document = .ok compiled) :
    CarriesParameters record := by
  obtain ⟨distinct, names⟩ := options.dollarNames_shown compiles
  cases shows with
  | fragment none =>
    refine ⟨_, read, ?_⟩
    rintro value ⟨⟩
    rw [none] at names
    exact ⟨_, _, rfl, rfl, distinct, .inl ⟨rfl, names.eq_nil⟩⟩
  | @params members some denoted =>
    refine ⟨_, read, ?_⟩
    rintro value ⟨⟩
    rw [← denoted.names_eq] at names
    exact ⟨_, _, rfl, rfl, distinct, .inr ⟨members, rfl, names⟩⟩

/-- The parameterized mode implies JSON. -/
theorem json_of_parameterized {settings : Settings} (mode : settings.mode = .parameterized)
    (arguments : Arguments) : (OutputOptions.ofSettings settings arguments).json = true := by
  rw [OutputOptions.ofSettings, mode]
  exact Bool.or_true _

theorem runBatch_carriesParameters {host : Host} {source : Source} {limit : Nat}
    {options : OutputOptions} (json : options.json = true) {written : String} {failures : Nat}
    (run : runBatch host source ⟨.parameterized, limit⟩ options = .ok (written, failures)) :
    ∃ records, Text.lines written.toList = records ++ [[]] ∧
      ∀ record ∈ records, CarriesParameters record := by
  obtain ⟨text, readable, finished⟩ := bind_eq_ok_iff.1 run
  cases finished
  refine ⟨_, lines_records_json json _, fun record mem => ?_⟩
  obtain ⟨entry, -, rfl⟩ := List.mem_map.1 mem
  obtain ⟨value, read, tells⟩ :=
    exists_tells_entryRecord ⟨.parameterized, limit⟩ json entry
  generalize outcome : compileEntry ⟨.parameterized, limit⟩ entry = result at tells
  cases tells with
  | error numbered => exact ⟨_, read, nofun⟩
  | compiled shows =>
    obtain ⟨document, -, compiles⟩ := compileEntry_eq_ok_iff.1 outcome
    exact carriesParameters_of_showsJson read shows compiles

/-- What is written for a value is one line. -/
theorem lines_toText (value : Json) :
    Text.lines (value.toText ++ "\n").toList = [value.toText.toList, []] := by
  rw [String.toList_append, Json.toText, String.toList_ofList]
  exact Text.lines_append_newline value.newline_not_mem_write []

theorem runSingle_carriesParameters {host : Host} {source : Source} {limit : Nat}
    {options : OutputOptions} (json : options.json = true) {written : String}
    (run : runSingle host source ⟨.parameterized, limit⟩ options = .ok written) :
    ∃ record, Text.lines written.toList = [record, []] ∧ CarriesParameters record := by
  obtain ⟨document, -, run⟩ := bind_eq_ok_iff.1 run
  obtain ⟨compiled, compiles, finished⟩ := bind_eq_ok_iff.1 run
  cases finished
  rw [mapError_eq_ok_iff] at compiles
  have writable := Compiler.writable_of_compile compiles
  refine ⟨(options.compiledRecord compiled).toList, ?_, ?_⟩
  · rw [OutputOptions.compiledRecord_json json]
    exact lines_toText _
  · exact carriesParameters_of_showsJson (ofText?_compiledRecord json writable)
      (showsJson_toJson writable) compiles

/-- **A parameterized fragment never leaves the program without its values**, whatever set the
mode, for a single document or a batch. -/
theorem run_parameterized_lines {host : Host} {words : List String} {arguments : Arguments}
    {settings : Settings} (parsed : Arguments.parse host words = .ok arguments)
    (resolved : resolveSettings host arguments = .ok settings)
    (mode : settings.mode = .parameterized) :
    ∃ stdout failure records, run host words = .finished stdout failure ∧
      Text.lines stdout.toList = records ++ [[]] ∧
      ∀ record ∈ records, CarriesParameters record := by
  have json := json_of_parameterized mode arguments
  have compiler : settings.compiler = ⟨.parameterized, settings.maxDepth⟩ := by
    rw [Settings.compiler, mode]
  simp only [run, parsed, runArguments, resolved, compiler]
  split
  · split
    · exact ⟨_, _, [], rfl, rfl, nofun⟩
    · rename_i written failures finished
      obtain ⟨records, lines, each⟩ := runBatch_carriesParameters json finished
      exact ⟨_, _, records, rfl, lines, each⟩
  · split
    · exact ⟨_, _, [], rfl, rfl, nofun⟩
    · rename_i written finished
      obtain ⟨record, lines, carries⟩ := runSingle_carriesParameters json finished
      exact ⟨_, _, [record], rfl, lines, List.forall_mem_singleton.2 carries⟩

/-- The mode comes from the environment; a field name looks like a parameter. -/
theorem run_parameterized_lines_of_environment :
    let host : Host := { environment := [("GELFILTER_MODE", "parameterized")] }
    let words : List String := ["\x7b\"a$p3\": 1\x7d"]
    let fragment : String := "<str>json_get(.metadata, \"a$p3\") = <int64>$p0"
    (∃ arguments settings, Arguments.parse host words = .ok arguments ∧
      resolveSettings host arguments = .ok settings ∧ settings.mode = .parameterized) ∧
    ∃ record, run host words = .finished (record ++ "\n") none ∧
      CarriesParameters record.toList ∧
      ∃ members, Json.ofText? record.toList = some (.object members) ∧
        members.lookup "fragment" = some (.string fragment) ∧
        dollarNames (scan fragment.toList).code = ["p0"] := by
  intro host words fragment
  let arguments : Arguments := { filter := some "\x7b\"a$p3\": 1\x7d" }
  let settings : Settings := { mode := .parameterized }
  let compiled : CompiledFilter := ⟨fragment, [("p0", .integer 1)]⟩
  have parsed : Arguments.parse host words = .ok arguments := rfl
  have environment : SettingValues.ofEnvironment host.environment =
      [("mode", .text "parameterized")] := by decide +kernel
  have resolved : resolveSettings host arguments = .ok settings := by
    simp only [resolveSettings, Settings.load, environment]
    cbv
  have document : Json.ofText? (Text.trim "\x7b\"a$p3\": 1\x7d".toList) =
      some (.object [("a$p3", .ofInt64 1)]) := by cbv
  have compiles : settings.compiler.compile (.object [("a$p3", .ofInt64 1)]) = .ok compiled := by
    cbv
  have output : run host words = .finished (compiled.toJson.toText ++ "\n") none := by
    have source : arguments.source = .inline "\x7b\"a$p3\": 1\x7d" := rfl
    have single : arguments.batch = false := rfl
    simp only [run, parsed, runArguments, resolved, source, single, Bool.false_eq_true, if_false,
      runSingle_inline host settings.compiler _ document, compiles]
    rfl
  obtain ⟨stdout, failure, records, finished, lines, each⟩ :=
    run_parameterized_lines parsed resolved rfl
  refine ⟨⟨arguments, settings, parsed, resolved, rfl⟩, _, output, each _ ?_, _,
    (Compiler.writable_of_compile compiles).ofText?_toJson, rfl, by cbv⟩
  rw [output] at finished
  obtain rfl := (Outcome.finished.inj finished).1
  rw [lines_toText] at lines
  have only : [compiled.toJson.toText.toList] = records := List.append_cancel_right lines
  exact only ▸ List.mem_singleton_self _

end Program

end MetadataFilter
