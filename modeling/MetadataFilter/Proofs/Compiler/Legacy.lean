import MetadataFilter.Proofs.Compiler.FrontEnds
import MetadataFilter.Proofs.Compiler.Modes

/-!
# One legacy text by every route

The legacy text of a filter can be had from a document, with or without a compiler, and from the
filter, by a compiler or without one. Not every route checks the same: what was read from a document
is written without being checked again. This is sound since everything that is read with a limit is
valid with this limit (`Filter.validate_of_ofJson`), and so all routes give one text or all fail
(`Compiler.legacy_routes_agree`).
-/

namespace MetadataFilter

/-- What was read need not be checked. -/
theorem Filter.validate_of_ofJson {limit : Nat} (levels : 1 ≤ limit) {document : Json}
    {filter : Filter} (read : Filter.ofJson limit document = .ok filter) :
    filter.validate limit = .ok () := by
  obtain ⟨limit, rfl⟩ := Nat.exists_eq_add_of_le' levels
  exact ((Filter.ofJson_succ_eq_ok_iff limit document filter).1 read).2

/-- Only `always` has no legacy text. -/
theorem Filter.legacyText_eq_empty_iff {filter : Filter} :
    (filter.render .legacy).fragment = "" ↔ filter = .always := by
  rw [← String.toList_eq_nil_iff, filter.render_text, Filter.write_eq_nil_iff]

/-- In the legacy mode a compiled filter is its text. -/
theorem Filter.render_legacy (filter : Filter) :
    filter.render .legacy = ⟨(filter.render .legacy).fragment, []⟩ := by
  have none : (filter.render .legacy).params = [] :=
    Filter.render_params_eq_nil (by decide) filter
  rw [← none]

theorem Fragment.clause?_eq_none_iff {fragment : String} :
    Fragment.clause? fragment = none ↔ fragment = "" := by
  simp [Fragment.clause?]

namespace Compiler

variable {document : Json} {filter : Filter} {text : String} {error : FilterError}

/-! ## From a filter -/

theorem compileFilter_default_eq_map (filter : Filter) :
    compileFilter {} filter =
      (filter.validate 32).map fun _ => ⟨(filter.render .legacy).fragment, []⟩ := by
  rw [← filter.render_legacy]
  have step : compileFilter {} filter =
      filter.validate 32 >>= fun _ => .ok (filter.render .legacy) := rfl
  rw [step]
  cases filter.validate 32 <;> rfl

theorem toText?_eq_map (filter : Filter) :
    filter.toText? =
      (filter.validate 32).toOption.map fun _ => (filter.render .legacy).fragment := by
  rw [Filter.toText?, defaultMaxDepth]
  cases filter.validate 32 <;> rfl

theorem toText?_eq_some_iff :
    filter.toText? = some text ↔ compileFilter {} filter = .ok ⟨text, []⟩ := by
  rw [toText?_eq_map, compileFilter_default_eq_map]
  cases filter.validate 32 <;> simp [Except.map, Except.toOption]

theorem toText?_eq_none_iff :
    filter.toText? = none ↔ ∃ error, compileFilter {} filter = .error error := by
  rw [toText?_eq_map, compileFilter_default_eq_map]
  cases filter.validate 32 <;> simp [Except.map, Except.toOption]

theorem eq_empty_iff_of_toText? (written : filter.toText? = some text) :
    text = "" ↔ filter = .always := by
  rw [toText?_eq_map, Option.map_eq_some_iff] at written
  obtain ⟨-, -, rfl⟩ := written
  exact Filter.legacyText_eq_empty_iff

/-! ## From a document -/

theorem compileLegacy_eq_map (document : Json) :
    compileLegacy document =
      (Filter.ofJson 32 document).map fun filter => (filter.render .legacy).fragment := rfl

/-- The default compiler makes no check of its own on what was read. -/
theorem compile_default_eq_map (document : Json) :
    compile {} document =
      (Filter.ofJson 32 document).map fun filter => ⟨(filter.render .legacy).fragment, []⟩ := by
  cases read : Filter.ofJson 32 document with
  | error e => exact compile_of_error read .legacy
  | ok filter => exact (compile_legacy read).trans (congrArg Except.ok filter.render_legacy)

/-- Only the two empty documents have no clause. -/
theorem clause?_eq_none_iff_document (compiles : compileLegacy document = .ok text) :
    Fragment.clause? text = none ↔ document = .null ∨ document = .object [] := by
  rw [compileLegacy_eq_map, map_eq_ok_iff] at compiles
  obtain ⟨filter, read, rfl⟩ := compiles
  rw [Fragment.clause?_eq_none_iff, Filter.legacyText_eq_empty_iff, or_comm, ← spells_always_iff]
  constructor
  · rintro rfl
    exact Filter.spells_of_ofJson read
  · intro spelled
    exact Except.ok.inj (read.symm.trans (Filter.ofJson_of_spells_always spelled 32))

/-- **Every route to the legacy text gives the same text or fails.** From a document that is read,
the two ways of compiling it and the two ways of writing its filter give one text, without
parameters; from any other document both ways fail as the reading does. From a filter, read or not,
both ways give one text or both fail. The text is empty only for `always`, and so there is a clause
for all documents but the two empty ones. -/
theorem legacy_routes_agree :
    (∀ document filter, Filter.ofJson 32 document = .ok filter → ∃ text,
      compileLegacy document = .ok text ∧ compile {} document = .ok ⟨text, []⟩ ∧
      compileFilter {} filter = .ok ⟨text, []⟩ ∧ filter.toText? = some text) ∧
    (∀ document error,
      (compileLegacy document = .error error ↔ Filter.ofJson 32 document = .error error) ∧
      (compile {} document = .error error ↔ Filter.ofJson 32 document = .error error)) ∧
    (∀ filter : Filter,
      (∀ text, filter.toText? = some text ↔ compileFilter {} filter = .ok ⟨text, []⟩) ∧
      (filter.toText? = none ↔ ∃ error, compileFilter {} filter = .error error) ∧
      ∀ text, filter.toText? = some text → (text = "" ↔ filter = .always)) ∧
    ∀ document text, compileLegacy document = .ok text →
      (Fragment.clause? text = none ↔ document = .null ∨ document = .object []) := by
  refine ⟨fun document filter read => ?_, fun document error => ?_, fun filter => ?_,
    fun _ _ => clause?_eq_none_iff_document⟩
  · have valid := Filter.validate_of_ofJson (by decide) read
    rw [compileLegacy_eq_map, compile_default_eq_map, compileFilter_default_eq_map, toText?_eq_map,
      read, valid]
    exact ⟨_, rfl, rfl, rfl, rfl⟩
  · rw [compileLegacy_eq_map, compile_default_eq_map]
    exact ⟨map_eq_error_iff, map_eq_error_iff⟩
  · exact ⟨fun _ => toText?_eq_some_iff, toText?_eq_none_iff, fun _ => eq_empty_iff_of_toText?⟩

/-- A document with a short comparison and a mixed list, which no strict mode would accept. -/
theorem legacy_routes_agree_of_mixed_list :
    let filter : Filter := .combine .and
      [.compare .eq "a" (.scalar (.bool true)),
        .compare .oneOf "b" (.list [.string "x", .bool false])]
    let members : Json := .object [("b", .array [.string "x", .bool false])]
    let document : Json :=
      .object [("$and", .array [.object [("a", .bool true)], .object [("$in", members)]])]
    let text := "(<str>json_get(.metadata, \"a\") = true and " ++
      "<str>json_get(.metadata, \"b\") in array_unpack([\"x\", false]))"
    Filter.ofJson 32 document = .ok filter ∧ compileLegacy document = .ok text ∧
      compile {} document = .ok ⟨text, []⟩ ∧ compileFilter {} filter = .ok ⟨text, []⟩ ∧
      Fragment.clause? text ≠ none := by
  intro filter members document text
  have read : Filter.ofJson 32 document = .ok filter := rfl
  have written : filter.toText? = some text := rfl
  obtain ⟨ofDocument, -, ofFilter, clause⟩ := legacy_routes_agree
  obtain ⟨text', legacy, compiled, compiledFilter, written'⟩ := ofDocument document filter read
  obtain rfl := Option.some.inj (written.symm.trans written')
  have notEmpty : ¬(document = .null ∨ document = .object []) := by simp [document]
  exact ⟨read, legacy, compiled, compiledFilter, mt (clause document text legacy).1 notEmpty⟩

end Compiler

end MetadataFilter
