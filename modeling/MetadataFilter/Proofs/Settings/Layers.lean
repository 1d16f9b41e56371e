import MetadataFilter.Program
import MetadataFilter.Proofs.Outcome
import MetadataFilter.Proofs.Settings.Values

/-!
# Layers of settings

Each of the three settings is decided on its own. The environment's value counts before the file's,
a flag before both, and what nobody says has its default. A value that counts has to be one of its
setting even if a flag stands in its place (`Unusable`), and a nesting limit of zero is never one.
Keys that lead to no setting are without effect (`Program.resolveSettings_layers`).

Keys are paths, so `mode.escaped` is no key beside the settings but a part of the setting `mode`,
and sets the mode (`Program.resolveSettings_part_of_setting`).
-/

namespace MetadataFilter

/-! ## Settings from values -/

def SettingValue.toMode? (value : SettingValue) : Option Mode := value.toLabel?.bind Mode.ofLabel?

namespace Settings

section Choice

variable {α : Type} {value? : Option SettingValue} {convert : SettingValue → Option α}
  {default a : α}

/-- What a setting comes to: what its value stands for, or the default where it has none. -/
def Takes (value? : Option SettingValue) (convert : SettingValue → Option α) (default a : α) :
    Prop :=
  match value? with
  | none => a = default
  | some value => convert value = some a

theorem choose_eq_ok_iff {values : SettingValues} {name : String} :
    choose values name convert default = .ok a ↔ Takes (values.find? name) convert default a := by
  unfold choose Takes
  cases values.find? name with
  | none => simp [eq_comm]
  | some value => cases h : convert value <;> simp [h]

theorem Takes.eq_getD (h : Takes value? convert default a) :
    a = (value?.bind convert).getD default := by
  cases value? with
  | none => exact h
  | some value => simp [show convert value = some a from h]

/-- A setting comes to something unless its value is none of it. -/
theorem exists_takes (default : α) (h : ∀ value, value? = some value → convert value ≠ none) :
    ∃ a, Takes value? convert default a := by
  cases value? with
  | none => exact ⟨default, rfl⟩
  | some value => exact Option.ne_none_iff_exists'.1 (h value rfl)

end Choice

/-- A value that counts is none of its setting, or is a nesting limit of zero. -/
inductive Unusable (value? : String → Option SettingValue) : Prop
  | mode {value : SettingValue} (given : value? "mode" = some value) (not : value.toMode? = none)
  | maxDepth {value : SettingValue} (given : value? "max_depth" = some value)
      (not : value.toNat? = none)
  | clause {value : SettingValue} (given : value? "clause" = some value)
      (not : value.toBool? = none)
  | zero {value : SettingValue} (given : value? "max_depth" = some value)
      (zero : value.toNat? = some 0)

theorem Unusable.congr {value? value?' : String → Option SettingValue} (unusable : Unusable value?)
    (same : ∀ name ∈ settingNames, value? name = value?' name) : Unusable value?' := by
  have mode := same "mode" (by simp [settingNames])
  have maxDepth := same "max_depth" (by simp [settingNames])
  have clause := same "clause" (by simp [settingNames])
  cases unusable with
  | mode given not => exact .mode (mode ▸ given) not
  | maxDepth given not => exact .maxDepth (maxDepth ▸ given) not
  | clause given not => exact .clause (clause ▸ given) not
  | zero given zero => exact .zero (maxDepth ▸ given) zero

theorem ofValues_eq_ok_iff {values : SettingValues} {settings : Settings} :
    ofValues values = .ok settings ↔
      Takes (values.find? "mode") SettingValue.toMode? .legacy settings.mode ∧
      Takes (values.find? "max_depth") SettingValue.toNat? defaultMaxDepth settings.maxDepth ∧
      Takes (values.find? "clause") SettingValue.toBool? false settings.clause ∧
      settings.maxDepth ≠ 0 := by
  simp only [ofValues, bind_eq_ok_iff, choose_eq_ok_iff]
  constructor
  · rintro ⟨mode, takesMode, maxDepth, takesMaxDepth, clause, takesClause, loaded⟩
    split at loaded
    · cases loaded
    · next positive =>
      cases loaded
      exact ⟨takesMode, takesMaxDepth, takesClause, positive⟩
  · rintro ⟨takesMode, takesMaxDepth, takesClause, positive⟩
    refine ⟨_, takesMode, _, takesMaxDepth, _, takesClause, ?_⟩
    rw [if_neg positive]
    rfl

/-- Loading fails exactly if a value that counts cannot be used. -/
theorem exists_ofValues_iff {values : SettingValues} :
    (∃ settings, ofValues values = .ok settings) ↔ ¬Unusable values.find? := by
  constructor
  · rintro ⟨settings, loaded⟩ unusable
    obtain ⟨mode, maxDepth, clause, positive⟩ := ofValues_eq_ok_iff.1 loaded
    cases unusable with
    | mode given not => simp [Takes, given, not] at mode
    | maxDepth given not => simp [Takes, given, not] at maxDepth
    | clause given not => simp [Takes, given, not] at clause
    | zero given zero =>
      simp only [Takes, given, zero, Option.some.injEq] at maxDepth
      exact positive maxDepth.symm
  · intro usable
    obtain ⟨mode, takesMode⟩ := exists_takes Mode.legacy fun value given not =>
      usable (.mode given not)
    obtain ⟨maxDepth, takesMaxDepth⟩ := exists_takes defaultMaxDepth fun value given not =>
      usable (.maxDepth given not)
    obtain ⟨clause, takesClause⟩ := exists_takes false fun value given not =>
      usable (.clause given not)
    refine ⟨⟨mode, maxDepth, clause⟩,
      ofValues_eq_ok_iff.2 ⟨takesMode, takesMaxDepth, takesClause, ?_⟩⟩
    rintro rfl
    cases given : values.find? "max_depth" with
    | none => simp [Takes, given, defaultMaxDepth] at takesMaxDepth
    | some value =>
      rw [given] at takesMaxDepth
      exact usable (.zero given takesMaxDepth)

theorem fileValues_eq_error_iff {host : Host} {path : Option String} :
    (∃ e, fileValues host path = .error e) ↔
      ∃ name, path = some name ∧ SettingValues.load? host name = none := by
  cases path with
  | none => simp [fileValues]
  | some name => cases loaded : SettingValues.load? host name <;> simp [fileValues, loaded]

end Settings

namespace Program

open Settings (fileValues Unusable)

variable {host : Host} {arguments : Arguments} {settings : Settings}

/-- Flags stand in the place of what was loaded, once it is loaded. -/
theorem resolveSettings_eq_ok_iff :
    resolveSettings host arguments = .ok settings ↔
      ∃ file loaded, fileValues host arguments.config = .ok file ∧
        Settings.ofValues (file ++ SettingValues.ofEnvironment host.environment) = .ok loaded ∧
        arguments.maxDepth ≠ some 0 ∧
        settings = ⟨arguments.mode.getD loaded.mode, arguments.maxDepth.getD loaded.maxDepth,
          arguments.clause || loaded.clause⟩ := by
  simp only [resolveSettings, Settings.load, bind_eq_ok_iff, mapError_eq_ok_iff]
  constructor
  · rintro ⟨loaded, ⟨file, read, values⟩, rest⟩
    split at rest
    · cases rest
    · next positive =>
      cases rest
      exact ⟨file, loaded, read, values, positive, rfl⟩
  · rintro ⟨file, loaded, read, values, positive, rfl⟩
    refine ⟨loaded, ⟨file, read, values⟩, ?_⟩
    rw [if_neg positive]
    rfl

/-- Settings depend on the values that count for the three of them, and on nothing else. -/
theorem resolveSettings_congr {other : Host} {file file' : SettingValues}
    (read : fileValues host arguments.config = .ok file)
    (read' : fileValues other arguments.config = .ok file')
    (same : ∀ name ∈ settingNames,
      (file ++ SettingValues.ofEnvironment host.environment).find? name =
        (file' ++ SettingValues.ofEnvironment other.environment).find? name) :
    resolveSettings host arguments = resolveSettings other arguments := by
  have values : Settings.ofValues (file ++ SettingValues.ofEnvironment host.environment) =
      Settings.ofValues (file' ++ SettingValues.ofEnvironment other.environment) := by
    simp only [Settings.ofValues, Settings.choose]
    rw [same "mode" (by simp [settingNames]), same "max_depth" (by simp [settingNames]),
      same "clause" (by simp [settingNames])]
  simp only [resolveSettings, Settings.load, read, read']
  simp only [bind, Except.bind, values]

/-- No limit of zero gets through, neither a loaded one nor that of a flag. -/
theorem one_le_maxDepth (resolved : resolveSettings host arguments = .ok settings) :
    1 ≤ settings.maxDepth := by
  obtain ⟨file, loaded, -, values, limit, rfl⟩ := resolveSettings_eq_ok_iff.1 resolved
  obtain ⟨-, -, -, positive⟩ := Settings.ofValues_eq_ok_iff.1 values
  rw [Nat.one_le_iff_ne_zero]
  cases flag : arguments.maxDepth with
  | none => exact positive
  | some depth =>
    rintro rfl
    exact limit flag

theorem resolveSettings_values (distinct : DistinctNames host.environment)
    (whole : WholeSettings host.environment)
    (resolved : resolveSettings host arguments = .ok settings) :
    ∃ file, fileValues host arguments.config = .ok file ∧
      settings.mode =
        (arguments.mode.or ((host.winning? file "mode").bind SettingValue.toMode?)).getD .legacy ∧
      settings.maxDepth =
        (arguments.maxDepth.or
          ((host.winning? file "max_depth").bind SettingValue.toNat?)).getD 32 ∧
      (settings.clause = true ↔ arguments.clause = true ∨
        (host.winning? file "clause").bind SettingValue.toBool? = some true) := by
  obtain ⟨file, loaded, read, values, -, rfl⟩ := resolveSettings_eq_ok_iff.1 resolved
  obtain ⟨mode, maxDepth, clause, -⟩ := Settings.ofValues_eq_ok_iff.1 values
  rw [Host.find?_eq_winning? file distinct whole (by simp [settingNames])] at mode maxDepth clause
  refine ⟨file, read, ?_, ?_, ?_⟩
  · rw [mode.eq_getD]
    cases arguments.mode <;> rfl
  · rw [maxDepth.eq_getD]
    cases arguments.maxDepth <;> rfl
  · rw [clause.eq_getD, Bool.or_eq_true]
    cases (host.winning? file "clause").bind SettingValue.toBool? <;> simp

/-- Loading fails on the values that count, also where a flag stands in the place of one. -/
theorem resolveSettings_fails_iff (distinct : DistinctNames host.environment)
    (whole : WholeSettings host.environment) :
    (∃ failure, resolveSettings host arguments = .error failure) ↔
      (∃ path, arguments.config = some path ∧ SettingValues.load? host path = none) ∨
      (∃ file, fileValues host arguments.config = .ok file ∧ Unusable (host.winning? file)) ∨
      arguments.maxDepth = some 0 := by
  have counts (file : SettingValues) :
      Unusable (file ++ SettingValues.ofEnvironment host.environment).find? ↔
        Unusable (host.winning? file) := by
    have same (name : String) (mem : name ∈ settingNames) :=
      Host.find?_eq_winning? file distinct whole mem
    exact ⟨fun h => h.congr same, fun h => h.congr fun name mem => (same name mem).symm⟩
  rw [← Settings.fileValues_eq_error_iff]
  constructor
  · rintro ⟨failure, failed⟩
    by_contra none
    push Not at none
    obtain ⟨loads, usable, limit⟩ := none
    cases read : fileValues host arguments.config with
    | error e => exact loads e read
    | ok file =>
      obtain ⟨loaded, values⟩ :=
        Settings.exists_ofValues_iff.2 (mt (counts file).1 (usable file read))
      rw [resolveSettings_eq_ok_iff.2 ⟨file, loaded, read, values, limit, rfl⟩] at failed
      cases failed
  · intro fault
    cases resolved : resolveSettings host arguments with
    | error failure => exact ⟨failure, rfl⟩
    | ok settings =>
      exfalso
      obtain ⟨file, loaded, read, values, limit, -⟩ := resolveSettings_eq_ok_iff.1 resolved
      rcases fault with ⟨e, failed⟩ | ⟨file', read', unusable⟩ | zero
      · rw [read] at failed
        cases failed
      · rw [read] at read'
        cases read'
        exact Settings.exists_ofValues_iff.1 ⟨loaded, values⟩ ((counts file).2 unusable)
      · exact limit zero

/-- **Settings come in layers, each on its own.** A flag counts before the environment, the
environment before the file, and the default is left; a clause is made if the flag or the value that
counts says so. There are no settings if the file cannot be loaded, if a value that counts cannot be
used, with or without a flag, or if the flag asks for no nesting at all; so the nesting limit is
never zero. Keys and variables that lead to no setting change nothing. -/
theorem resolveSettings_layers (host : Host) (arguments : Arguments) :
    (∀ settings, resolveSettings host arguments = .ok settings → 1 ≤ settings.maxDepth) ∧
    (DistinctNames host.environment → WholeSettings host.environment →
      (∀ settings, resolveSettings host arguments = .ok settings →
        ∃ file, fileValues host arguments.config = .ok file ∧
          settings.mode =
            (arguments.mode.or
              ((host.winning? file "mode").bind SettingValue.toMode?)).getD .legacy ∧
          settings.maxDepth =
            (arguments.maxDepth.or
              ((host.winning? file "max_depth").bind SettingValue.toNat?)).getD 32 ∧
          (settings.clause = true ↔ arguments.clause = true ∨
            (host.winning? file "clause").bind SettingValue.toBool? = some true)) ∧
      ((∃ failure, resolveSettings host arguments = .error failure) ↔
        (∃ path, arguments.config = some path ∧ SettingValues.load? host path = none) ∨
        (∃ file, fileValues host arguments.config = .ok file ∧ Unusable (host.winning? file)) ∨
        arguments.maxDepth = some 0)) ∧
    (∀ file, fileValues host arguments.config = .ok file → ∀ name ∈ settingNames,
      (file.filter (SettingValues.leadsTo name) = [] → file.find? name = none) ∧
      ∀ value, file.filter (SettingValues.leadsTo name) = [(name, value)] →
        file.find? name = some value) ∧
    ∀ other file file', fileValues host arguments.config = .ok file →
      fileValues other arguments.config = .ok file' →
      file.filter (isSettingKey ·.1) = file'.filter (isSettingKey ·.1) →
      host.environment.filter (isSettingVariable ·.1) =
        other.environment.filter (isSettingVariable ·.1) →
      resolveSettings host arguments = resolveSettings other arguments := by
  refine ⟨fun settings => one_le_maxDepth, fun distinct whole => ⟨fun settings resolved => ?_, ?_⟩,
    fun file read name mem => ⟨?_, fun value only => ?_⟩, ?_⟩
  · exact resolveSettings_values distinct whole resolved
  · exact resolveSettings_fails_iff distinct whole
  · exact SettingValues.find?_of_filter_eq_nil
  · have entry : (name, value) ∈ file := by
      apply List.mem_of_mem_filter
      rw [only]
      exact List.mem_cons_self
    exact SettingValues.find?_of_filter_eq (SettingValues.listed_of_fileValues read _ entry) mem
      only
  · intro other file file' read read' sameFile sameEnvironment
    exact resolveSettings_congr read read' fun name mem =>
      Host.find?_eq_of_filter_eq sameFile sameEnvironment mem

/-- The flag stands for the mode, a variable counts before the file, and the file says the rest. -/
theorem resolveSettings_layers_of_host :
    let host : Host :=
      { files := [("s.json", "\x7b\"clause\":true,\"max_depth\":5\x7d".toUTF8)]
        environment := [("GELFILTER_max_depth", "7"), ("GELFILTER_OTHER", "true")] }
    let arguments : Arguments := { mode := some .parameterized, config := some "s.json" }
    DistinctNames host.environment ∧ WholeSettings host.environment ∧
      ∃ settings, resolveSettings host arguments = .ok settings ∧
        settings.mode = .parameterized ∧ settings.maxDepth = 7 ∧ settings.clause = true := by
  intro host arguments
  let file : SettingValues := [("clause", .bool true), ("max_depth", .integer 5)]
  have distinct : DistinctNames host.environment := by
    simp only [DistinctNames, host]
    decide +kernel
  have maxDepthKey : settingKey? "GELFILTER_max_depth" = some "max_depth" := by decide +kernel
  have otherKey : settingKey? "GELFILTER_OTHER" = some "other" := by decide +kernel
  have other : SettingPath.ofKey "other" = ⟨"other", []⟩ :=
    ofKey_of_isNameChar (by decide) (by decide)
  have whole : WholeSettings host.environment := by
    simp [WholeSettings, host, maxDepthKey, otherKey, isSettingKey, other, settingNames]
  have loaded : SettingValues.load? host "s.json" = some file := by decide +kernel
  have read : fileValues host arguments.config = .ok file := by decide +kernel
  obtain ⟨-, layers, ofFile, -⟩ := resolveSettings_layers host arguments
  obtain ⟨values, fails⟩ := layers distinct whole
  have clausePath : SettingPath.ofKey "clause" = ⟨"clause", []⟩ := ofKey_of_mem (by decide)
  have maxDepthPath : SettingPath.ofKey "max_depth" = ⟨"max_depth", []⟩ := ofKey_of_mem (by decide)
  have noMode : host.winning? file "mode" = none := by
    have absent := (ofFile file read "mode" (by decide)).1
      (by simp [file, SettingValues.leadsTo, clausePath, maxDepthPath])
    have unset : variableValue? host.environment "mode" = none := by decide +kernel
    rw [Host.winning?, unset, absent, Option.or_none]
  have maxDepth : host.winning? file "max_depth" = some (.integer 7) := by
    have set : variableValue? host.environment "max_depth" = some (.integer 7) := by decide +kernel
    rw [Host.winning?, set, Option.some_or]
  have clause : host.winning? file "clause" = some (.bool true) := by
    have only := (ofFile file read "clause" (by decide)).2 (.bool true)
      (by simp [file, SettingValues.leadsTo, clausePath, maxDepthPath])
    have unset : variableValue? host.environment "clause" = none := by decide +kernel
    rw [Host.winning?, unset, only, Option.none_or]
  refine ⟨distinct, whole, ?_⟩
  cases resolved : resolveSettings host arguments with
  | error failure =>
    rcases fails.1 ⟨failure, resolved⟩ with ⟨path, same, missing⟩ | ⟨file', read', unusable⟩ | zero
    · cases same
      rw [loaded] at missing
      cases missing
    · rw [read] at read'
      cases read'
      cases unusable with
      | mode given => cases noMode.symm.trans given
      | maxDepth given not =>
        cases maxDepth.symm.trans given
        cases not
      | clause given not =>
        cases clause.symm.trans given
        cases not
      | zero given zero =>
        cases maxDepth.symm.trans given
        cases zero
    · cases zero
  | ok settings =>
    obtain ⟨file', read', mode, limit, clauses⟩ := values settings resolved
    rw [read] at read'
    cases read'
    rw [maxDepth] at limit
    rw [clause] at clauses
    exact ⟨settings, rfl, mode, limit, clauses.2 (.inr rfl)⟩

/-- A part of a setting is no key beside the settings: it counts, in a file and in the
environment. -/
theorem resolveSettings_part_of_setting :
    let host : Host := { files := [("s.json", "\x7b\"mode.escaped\":1\x7d".toUTF8)] }
    let other : Host := { environment := [("GELFILTER_MODE.ESCAPED", "1")] }
    fileValues host (some "s.json") = .ok [("mode.escaped", .integer 1)] ∧
      "mode.escaped" ∉ settingNames ∧
      resolveSettings host { config := some "s.json" } = .ok { mode := .escaped } ∧
      resolveSettings other {} = .ok { mode := .escaped } := by
  intro host other
  have read : fileValues host (some "s.json") = .ok [("mode.escaped", .integer 1)] := by
    decide +kernel
  have environment :
      SettingValues.ofEnvironment other.environment = [("mode.escaped", .integer 1)] := by
    decide +kernel
  have path : SettingPath.ofKey "mode.escaped" = ⟨"mode", [.entry "escaped"]⟩ :=
    ofKey_entry "mode".toList "escaped".toList rfl (by decide) (by decide)
  have values : Settings.ofValues [("mode.escaped", .integer 1)] = .ok { mode := .escaped } := by
    rw [Settings.ofValues_eq_ok_iff]
    simp only [SettingValues.find?, List.foldl_cons, List.foldl_nil, SettingValues.putFor, path]
    exact ⟨rfl, rfl, rfl, by decide⟩
  refine ⟨read, by decide, ?_, ?_⟩
  · exact resolveSettings_eq_ok_iff.2 ⟨_, _, read, values, by decide, rfl⟩
  · exact resolveSettings_eq_ok_iff.2 ⟨[], _, rfl, environment ▸ values, by decide, rfl⟩

end Program

end MetadataFilter
