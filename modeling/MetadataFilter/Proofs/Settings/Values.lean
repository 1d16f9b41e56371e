import Mathlib.Data.List.Nodup
import Mathlib.Data.List.TakeWhile
import MetadataFilter.Settings.Basic
import MetadataFilter.Proofs.Text.Stops

/-!
# Which value a setting has

A key leads to a setting or to a part of one (`SettingPath.ofKey`), and values are put where their
keys lead, those of the file first. So a setting depends on the keys and variables that lead to it
and on no others (`Host.find?_eq_of_filter_eq`).

* The value that a file gives a setting is that of its key, if no other key leads there
  (`SettingValues.find?_of_filter_eq`). The names of a table are listed once already
  (`SettingValues.listed_of_fileValues`), so putting it there changes nothing.
* A variable takes the place of what the file says (`foldl_ofEnvironment`), as it is never a table.
-/

namespace MetadataFilter

/-! ## Keys of settings -/

/-- The names of the three settings. -/
def settingNames : List String := ["mode", "max_depth", "clause"]

/-- A key that leads to a setting or to a part of one. -/
def isSettingKey (key : String) : Bool := (SettingPath.ofKey key).name ∈ settingNames

/-- A variable whose key leads to a setting or to a part of one. -/
def isSettingVariable (variableName : String) : Bool := (settingKey? variableName).any isSettingKey

/-- A key of nothing but characters of names is a name. -/
theorem ofKey_of_isNameChar {key : String} (nonempty : key.toList ≠ [])
    (name : key.toList.all SettingPath.isNameChar = true) :
    SettingPath.ofKey key = ⟨key, []⟩ := by
  have whole : key.toList.takeWhile SettingPath.isNameChar = key.toList :=
    List.takeWhile_eq_self_iff.2 (List.all_eq_true.1 name)
  have path : SettingPath.steps? [] = some [] := by rw [SettingPath.steps?]
  simp only [SettingPath.ofKey, whole, List.drop_length, path]
  rw [if_neg (by simpa using nonempty), String.ofList_toList]

/-- A point between two names leads to an entry of a table. -/
theorem ofKey_entry {key : String} (name entry : List Char)
    (spelled : key.toList = name ++ '.' :: entry)
    (nonempty : name ≠ [] ∧ entry ≠ [])
    (names : (name ++ entry).all SettingPath.isNameChar = true) :
    SettingPath.ofKey key = ⟨String.ofList name, [.entry (String.ofList entry)]⟩ := by
  rw [List.all_eq_true] at names
  have before : key.toList.takeWhile SettingPath.isNameChar = name := by
    rw [spelled]
    exact Text.takeWhile_append_stops (fun c h => names c (List.mem_append_left _ h))
      (Text.stops_cons rfl _)
  have behind : entry.takeWhile SettingPath.isNameChar = entry :=
    List.takeWhile_eq_self_iff.2 fun c h => names c (List.mem_append_right _ h)
  have path : SettingPath.steps? ('.' :: entry) = some [.entry (String.ofList entry)] := by
    rw [SettingPath.steps?]
    simp only [behind, List.drop_length]
    rw [if_neg (by simpa using nonempty.2), SettingPath.steps?, Option.map_some]
  simp only [SettingPath.ofKey, before]
  rw [spelled, List.drop_left, path]
  simp only
  rw [if_neg (by simpa using nonempty.1)]

theorem ofKey_of_mem {name : String} (h : name ∈ settingNames) :
    SettingPath.ofKey name = ⟨name, []⟩ := by
  have names : ∀ name ∈ settingNames,
      name.toList ≠ [] ∧ name.toList.all SettingPath.isNameChar = true := by decide
  exact ofKey_of_isNameChar (names name h).1 (names name h).2

/-! ## Values in a file -/

namespace SettingValue

/-- The names of a table, each once. -/
def Listed (value : SettingValue) : Prop := ∀ names, value = .table names → names.Nodup

theorem nodup_addNames {names more : List String} (h : names.Nodup) :
    (addNames names more).Nodup := by
  induction more generalizing names with
  | nil => exact h
  | cons name more ih =>
    rw [addNames]
    apply ih
    split
    · exact h
    · next new =>
      exact h.append (List.nodup_singleton name) (by simpa using new)

theorem addNames_of_nodup {names more : List String} (h : (names ++ more).Nodup) :
    addNames names more = names ++ more := by
  induction more generalizing names with
  | nil => exact (List.append_nil names).symm
  | cons name more ih =>
    have new : name ∉ names := fun mem =>
      (List.nodup_append.1 h).2.2 name mem name List.mem_cons_self rfl
    rw [addNames, if_neg new, ih (by simpa using h), List.append_assoc, List.singleton_append]

theorem listed_tableOf (names : List String) : (tableOf names).Listed := by
  rintro _ ⟨⟩
  exact nodup_addNames List.nodup_nil

/-- A value where none is stays as it is. -/
theorem put_none {value : SettingValue} (h : value.Listed) : put none [] value = value := by
  cases value with
  | table names => exact congrArg table (addNames_of_nodup (h names rfl))
  | _ => rfl

theorem listed_ofJson (json : Json) : (ofJson json).Listed := by
  cases json with
  | object members => exact listed_tableOf _
  | number n => cases n <;> exact nofun
  | _ => exact nofun

end SettingValue

theorem SettingNode.listed_of_value? {node : SettingNode} {value : SettingValue}
    (h : node.value? = some value) : value.Listed := by
  cases node with
  | missing =>
    cases h
    exact nofun
  | scalar s =>
    cases s with
    | real spelling =>
      obtain ⟨x, -, rfl⟩ := Option.map_eq_some_iff.1 h
      exact nofun
    | _ =>
      cases h
      exact nofun
  | list items =>
    rw [value?] at h
    split at h
    · cases h
      exact nofun
    · cases h
  | table entries =>
    rw [value?] at h
    obtain ⟨values, -, rfl⟩ := Option.map_eq_some_iff.1 h
    exact SettingValue.listed_tableOf _

theorem SettingNode.listed_of_entryValues? {entries : List (SettingNode × SettingNode)}
    {values : SettingValues} (h : entryValues? entries = some values) :
    ∀ entry ∈ values, entry.2.Listed := by
  induction entries generalizing values with
  | nil =>
    rw [entryValues?] at h
    cases h
    exact nofun
  | cons entry rest ih =>
    rw [entryValues?] at h
    split at h
    · next name value others _ hv ho =>
      cases h
      rintro entry mem
      rcases List.mem_cons.1 mem with rfl | mem
      · exact listed_of_value? hv
      · exact ih ho entry mem
    · cases h

namespace SettingValues

theorem listed_of_ofFile? {extension : Option String} {content : ByteArray} {values : SettingValues}
    (h : ofFile? extension content = some values) : ∀ entry ∈ values, entry.2.Listed := by
  unfold ofFile? at h
  split at h
  · unfold ofYaml? at h
    obtain ⟨tokens, -, h⟩ := Option.bind_eq_some_iff.1 h
    split at h
    · cases h
      exact nofun
    · obtain ⟨document, -, h⟩ := Option.bind_eq_some_iff.1 h
      obtain ⟨root, -, h⟩ := Option.bind_eq_some_iff.1 h
      split at h
      · exact SettingNode.listed_of_entryValues? h
      · cases h
  · split at h
    · unfold ofJson? at h
      split at h
      · cases h
        intro entry mem
        obtain ⟨member, -, rfl⟩ := List.mem_map.1 mem
        exact SettingValue.listed_ofJson member.2
      · cases h
    · cases h

theorem listed_of_fileValues {host : Host} {path : Option String} {file : SettingValues}
    (h : Settings.fileValues host path = .ok file) : ∀ entry ∈ file, entry.2.Listed := by
  unfold Settings.fileValues at h
  split at h
  · cases h
    exact nofun
  · split at h
    · next path values loaded =>
      cases h
      unfold load? at loaded
      split at loaded
      · cases loaded
      · obtain ⟨content, -, read⟩ := Option.bind_eq_some_iff.1 loaded
        exact listed_of_ofFile? read
    · cases h

/-! ## Which entries count -/

variable {name : String}

/-- An entry whose key leads to a setting or to a part of it. -/
def leadsTo (name : String) (entry : String × SettingValue) : Bool :=
  (SettingPath.ofKey entry.1).name = name

/-- Entries that lead elsewhere do not count. -/
theorem foldl_putFor_filter {counts : String × SettingValue → Bool}
    (h : ∀ entry, leadsTo name entry = true → counts entry = true)
    (current : Option SettingValue) (values : SettingValues) :
    (values.filter counts).foldl (putFor name) current = values.foldl (putFor name) current := by
  rw [List.foldl_filter]
  congr
  funext current entry
  split
  · rfl
  · next not =>
    have elsewhere : (SettingPath.ofKey entry.1).name ≠ name := fun leads =>
      not (h entry (decide_eq_true leads))
    exact (if_neg elsewhere).symm

/-- The name of a setting leads to all of the setting. -/
theorem putFor_name (mem : name ∈ settingNames) (current : Option SettingValue)
    (value : SettingValue) :
    putFor name current (name, value) = some (SettingValue.put current [] value) := by
  simp only [putFor, ofKey_of_mem mem, if_true]

/-- The value that a file gives a setting: that of its key, if no other key leads to the setting. -/
theorem find?_of_filter_eq {file : SettingValues} {value : SettingValue} (listed : value.Listed)
    (mem : name ∈ settingNames) (only : file.filter (leadsTo name) = [(name, value)]) :
    file.find? name = some value := by
  rw [find?, ← foldl_putFor_filter (fun _ leads => leads) none file, only, List.foldl_cons,
    List.foldl_nil, putFor_name mem, SettingValue.put_none listed]

theorem find?_of_filter_eq_nil {file : SettingValues} (absent : file.filter (leadsTo name) = []) :
    file.find? name = none := by
  rw [find?, ← foldl_putFor_filter (fun _ leads => leads) none file, absent, List.foldl_nil]

end SettingValues

/-! ## Values in the environment -/

section Environment

variable {environment : List (String × String)} {name : String}

/-- The value that the environment gives a setting: that of the variable with its name. -/
def variableValue? (environment : List (String × String)) (name : String) : Option SettingValue :=
  (environment.find? fun entry => SettingValue.lower entry.1 = "gelfilter_" ++ name).map
    fun entry => .ofVariable entry.2

theorem settingKey?_eq_some_iff {variableName key : String} :
    settingKey? variableName = some key ↔
      SettingValue.lower variableName = "gelfilter_" ++ key := by
  have mark : "gelfilter_".toList = environmentMark := rfl
  rw [SettingValue.lower, ← String.toList_inj, String.toList_append, String.toList_ofList, mark,
    settingKey?]
  generalize variableName.toList.map Char.toLower = text
  constructor
  · intro h
    split at h
    · next starts =>
      rw [← Option.some.inj h, String.toList_ofList,
        ← List.take_append_drop environmentMark.length text, starts]
      simp
    · cases h
  · intro same
    subst same
    simp

theorem ofVariable_ne_table (text : String) (names : List String) :
    SettingValue.ofVariable text ≠ .table names := by
  unfold SettingValue.ofVariable
  split
  · exact nofun
  split
  · exact nofun
  split
  · exact nofun
  · split <;> exact nofun

/-- The value of a variable takes the place of what is there. -/
theorem put_ofVariable (current : Option SettingValue) (text : String) :
    SettingValue.put current [] (.ofVariable text) = .ofVariable text := by
  have noTable := ofVariable_ne_table text
  cases value : SettingValue.ofVariable text with
  | table names => exact absurd value (noTable names)
  | _ => rfl

/-- No two variables differ only in the case of letters, so at most one gives a setting. -/
def DistinctNames (environment : List (String × String)) : Prop :=
  environment.Pairwise fun a b => SettingValue.lower a.1 ≠ SettingValue.lower b.1

/-- No variable leads to a part of a setting. -/
def WholeSettings (environment : List (String × String)) : Prop :=
  ∀ entry ∈ environment, ∀ key, settingKey? entry.1 = some key → isSettingKey key = true →
    key ∈ settingNames

theorem ofEnvironment_cons (entry : String × String) (rest : List (String × String)) :
    SettingValues.ofEnvironment (entry :: rest) =
      match settingKey? entry.1 with
      | none => SettingValues.ofEnvironment rest
      | some key => (key, .ofVariable entry.2) :: SettingValues.ofEnvironment rest := by
  cases key : settingKey? entry.1 <;> simp [SettingValues.ofEnvironment, key]

theorem variableValue?_cons (entry : String × String) (rest : List (String × String)) :
    variableValue? (entry :: rest) name =
      if SettingValue.lower entry.1 = "gelfilter_" ++ name then some (.ofVariable entry.2)
      else variableValue? rest name := by
  unfold variableValue?
  split
  · next named => simp [named]
  · next other => simp [other]

/-- The environment is put on top: its variable counts, else what is there. -/
theorem foldl_ofEnvironment (distinct : DistinctNames environment)
    (whole : WholeSettings environment) (mem : name ∈ settingNames)
    (current : Option SettingValue) :
    (SettingValues.ofEnvironment environment).foldl (SettingValues.putFor name) current =
      (variableValue? environment name).or current := by
  induction environment generalizing current with
  | nil => rfl
  | cons entry rest ih =>
    obtain ⟨others, distinct⟩ := List.pairwise_cons.1 distinct
    have ih := ih distinct fun entry h => whole entry (List.mem_cons_of_mem _ h)
    rw [ofEnvironment_cons, variableValue?_cons]
    by_cases named : SettingValue.lower entry.1 = "gelfilter_" ++ name
    · have absent : variableValue? rest name = none := by
        rw [variableValue?, Option.map_eq_none_iff, List.find?_eq_none]
        intro other h same
        exact others other h (named.trans (of_decide_eq_true same).symm)
      rw [if_pos named, settingKey?_eq_some_iff.2 named, List.foldl_cons,
        SettingValues.putFor_name mem, put_ofVariable, ih, absent, Option.none_or, Option.some_or]
    · rw [if_neg named, ← ih]
      split
      · rfl
      · next key spelled =>
        have elsewhere : (SettingPath.ofKey key).name ≠ name := by
          intro leads
          have member := whole entry List.mem_cons_self key spelled (by simpa [isSettingKey, leads])
          rw [ofKey_of_mem member] at leads
          exact named (settingKey?_eq_some_iff.1 (spelled.trans (congrArg some leads)))
        rw [List.foldl_cons, SettingValues.putFor, if_neg elsewhere]

theorem filter_ofEnvironment (environment : List (String × String)) :
    (SettingValues.ofEnvironment environment).filter (isSettingKey ·.1) =
      SettingValues.ofEnvironment (environment.filter (isSettingVariable ·.1)) := by
  induction environment with
  | nil => rfl
  | cons entry rest ih =>
    rw [ofEnvironment_cons, List.filter_cons, isSettingVariable]
    cases spelled : settingKey? entry.1 with
    | none => exact ih
    | some key =>
      simp only [List.filter_cons, Option.any_some]
      split
      · rw [ofEnvironment_cons, spelled, ih]
      · exact ih

end Environment

namespace Host

variable {host other : Host} {file file' : SettingValues} {name : String}

/-- The value of a setting that counts: the environment's, else the file's. -/
def winning? (host : Host) (file : SettingValues) (name : String) : Option SettingValue :=
  (variableValue? host.environment name).or (file.find? name)

theorem find?_eq_winning? (file : SettingValues) (distinct : DistinctNames host.environment)
    (whole : WholeSettings host.environment) (mem : name ∈ settingNames) :
    (file ++ SettingValues.ofEnvironment host.environment).find? name =
      host.winning? file name := by
  rw [SettingValues.find?_append, foldl_ofEnvironment distinct whole mem, winning?]

/-- A setting depends on the keys and variables that lead to one, and on no others. -/
theorem find?_eq_of_filter_eq
    (sameFile : file.filter (isSettingKey ·.1) = file'.filter (isSettingKey ·.1))
    (sameEnvironment : host.environment.filter (isSettingVariable ·.1) =
      other.environment.filter (isSettingVariable ·.1)) (mem : name ∈ settingNames) :
    (file ++ SettingValues.ofEnvironment host.environment).find? name =
      (file' ++ SettingValues.ofEnvironment other.environment).find? name := by
  have counts (entry : String × SettingValue) (leads : SettingValues.leadsTo name entry = true) :
      isSettingKey entry.1 = true := by
    rw [isSettingKey, of_decide_eq_true leads]
    exact decide_eq_true mem
  have counted (file : SettingValues) (environment : List (String × String)) :
      (file ++ SettingValues.ofEnvironment environment).filter (isSettingKey ·.1) =
        file.filter (isSettingKey ·.1) ++
          SettingValues.ofEnvironment (environment.filter (isSettingVariable ·.1)) := by
    rw [List.filter_append, filter_ofEnvironment]
  unfold SettingValues.find?
  rw [← SettingValues.foldl_putFor_filter counts none (file ++ _), counted, sameFile,
    sameEnvironment, ← counted, SettingValues.foldl_putFor_filter counts]

end Host

end MetadataFilter
