import MetadataFilter.Compiler
import MetadataFilter.Proofs.Document.Canonical
import MetadataFilter.Proofs.Filter.ListTypes

/-!
# Filters and their documents are compiled alike

A compiler does with the canonical document of a filter what it does with the filter
(`Compiler.compile_toJson_agrees`): both give the same fragment and parameters, or both refuse for
the same reason. The one difference is the place of a value that does not fit its operator.
-/

namespace MetadataFilter

namespace Filter

theorem exists_member_toJson {filter : Filter} (h : filter ≠ .always) :
    ∃ member, filter.toJson = .object [member] := by
  cases filter with
  | always => exact absurd rfl h
  | compare op field value => exact ⟨_, rfl⟩
  | combine op operands => exact ⟨_, rfl⟩

/-- Reading the canonical document of a filter and validating the filter. -/
theorem ofJson_toJson (limit : Nat) {filter : Filter} (levels : 1 ≤ limit)
    (finite : ∀ x ∈ filter.scalars, x.Finite) :
    (ofJson limit filter.toJson = .ok filter ∧ filter.validate limit = .ok ()) ∨
    ∃ read checked, filter.SameFault read checked ∧
      ofJson limit filter.toJson = .error (read.atLimit limit) ∧
      filter.validate limit = .error (checked.atLimit limit) := by
  by_cases always : filter = .always
  · subst always
    exact .inl ⟨rfl, if_neg (Nat.ne_of_gt levels)⟩
  · obtain ⟨member, single⟩ := exists_member_toJson always
    have read : ofJson limit filter.toJson =
        (ofExpression limit filter.toJson).mapError (Fault.atLimit limit) := by
      rw [single]
      rfl
    rw [read, validate_eq_check always]
    rcases ofExpression_toJson limit filter finite with
      ⟨reads, checks⟩ | ⟨r, c, same, reads, checks⟩
    · rw [reads, checks]
      exact .inl ⟨rfl, rfl⟩
    · rw [reads, checks]
      exact .inr ⟨r, c, same, rfl, rfl⟩

end Filter

namespace Compiler

/-- What a compiler does with a filter that was read, or that is valid. -/
theorem compile_of_ofJson {compiler : Compiler} {document : Json} {filter : Filter}
    (read : Filter.ofJson compiler.maxDepth document = .ok filter)
    (valid : filter.validate compiler.maxDepth = .ok ()) :
    compiler.compile document = compiler.compileFilter filter := by
  rw [compile, compileFilter, read, valid]
  rfl

theorem checkStrict_error {compiler : Compiler} {filter : Filter} {error : FilterError}
    (h : compiler.checkStrict filter = .error error) :
    ∃ path first other, error = .invalid path (.mixedList first other) := by
  unfold checkStrict at h
  split at h
  · exact Filter.mixedList_of_checkListTypes h
  · cases h

/-- Nothing but a mixed list is wrong with a valid filter. -/
theorem mixedList_of_compileFilter {compiler : Compiler} {filter : Filter} {error : FilterError}
    (valid : filter.validate compiler.maxDepth = .ok ())
    (h : compiler.compileFilter filter = .error error) :
    ∃ path first other, error = .invalid path (.mixedList first other) := by
  rw [compileFilter, valid] at h
  cases strict : compiler.checkStrict filter with
  | ok =>
    rw [strict] at h
    cases h
  | error e =>
    rw [strict] at h
    cases h
    exact checkStrict_error strict

/-- **A compiler treats a filter and its canonical document alike.** The filter may have any faults
at all, but for numbers that no document can hold. -/
theorem compile_toJson_agrees (compiler : Compiler) {filter : Filter}
    (levels : 1 ≤ compiler.maxDepth) (finite : ∀ x ∈ filter.scalars, x.Finite) :
    (∃ compiled, compiler.compile filter.toJson = .ok compiled ∧
      compiler.compileFilter filter = .ok compiled) ∨
    (compiler.compile filter.toJson = .error (.depthExceeded compiler.maxDepth) ∧
      compiler.compileFilter filter = .error (.depthExceeded compiler.maxDepth)) ∨
    (∃ path reason, reason.isOfValue = false ∧
      compiler.compile filter.toJson = .error (.invalid path reason) ∧
      compiler.compileFilter filter = .error (.invalid path reason)) ∨
    ∃ (place path documentPath : Path) (op : CompareOp) (field : String) (value : Literal)
        (reason : Reason),
      filter.At place (.compare op field value) ∧ value.check op = .error reason ∧
      reason.isOfValue = true ∧ path = place ++ [.key op.keyword] ∧
      documentPath = path ++ [.key field] ∧ documentPath.text = path.text ++ "." ++ field ∧
      compiler.compile filter.toJson = .error (.invalid documentPath reason) ∧
      compiler.compileFilter filter = .error (.invalid path reason) := by
  rcases Filter.ofJson_toJson compiler.maxDepth levels finite with
    ⟨read, valid⟩ | ⟨readFault, checkedFault, same, read, invalid⟩
  · rw [compile_of_ofJson read valid]
    cases outcome : compiler.compileFilter filter with
    | ok compiled => exact .inl ⟨compiled, rfl, rfl⟩
    | error error =>
      obtain ⟨path, first, other, rfl⟩ := mixedList_of_compileFilter valid outcome
      exact .inr (.inr (.inl ⟨path, _, rfl, rfl, rfl⟩))
  · have compiles : compiler.compile filter.toJson =
        .error (readFault.atLimit compiler.maxDepth) := by
      rw [compile, read]
      rfl
    have compilesFilter : compiler.compileFilter filter =
        .error (checkedFault.atLimit compiler.maxDepth) := by
      rw [compileFilter, invalid]
      rfl
    rw [compiles, compilesFilter]
    cases same with
    | tooDeep => exact .inr (.inl ⟨rfl, rfl⟩)
    | node path notOfValue => exact .inr (.inr (.inl ⟨path, _, notOfValue, rfl, rfl⟩))
    | @value place op field value reason located fault ofValue =>
      refine .inr (.inr (.inr ⟨place, _, _, op, field, value, reason, located, fault, ofValue,
        rfl, rfl, ?_, ?_, rfl⟩))
      · rw [Path.text_append_singleton, String.append_assoc]
        rfl
      · rw [List.append_assoc]
        rfl

/-- Of several faults the same one is reported, here the value of the second operand. -/
theorem compile_toJson_agrees_second_operand :
    let filter : Filter := .combine .and
      [.compare .eq "a" (.scalar (.bool true)), .compare .lt "x" (.list []), .always]
    let compiler : Compiler := ⟨.escaped, 2⟩
    1 ≤ compiler.maxDepth ∧ (∀ x ∈ filter.scalars, x.Finite) ∧
    ∃ (path : Path) (field : String),
      compiler.compile filter.toJson =
        .error (.invalid (path ++ [.key field]) (.listNotAccepted .lt)) ∧
      compiler.compileFilter filter = .error (.invalid path (.listNotAccepted .lt)) := by
  intro filter compiler
  have finite : ∀ x ∈ filter.scalars, x.Finite := by
    intro x hx
    obtain rfl : x = .bool true := List.mem_singleton.1 hx
    trivial
  have outcome : compiler.compileFilter filter =
      .error (.invalid [.key "$and", .index 1, .key "$lt"] (.listNotAccepted .lt)) := rfl
  refine ⟨by decide, finite, ?_⟩
  rcases compile_toJson_agrees compiler (by decide) finite with
    ⟨_, -, compiled⟩ | ⟨-, tooDeep⟩ | ⟨_, _, notOfValue, -, refused⟩ |
    ⟨_, path, _, _, field, _, _, -, -, -, -, rfl, -, document, refused⟩
  · rw [outcome] at compiled
    cases compiled
  · rw [outcome] at tooDeep
    cases tooDeep
  · rw [outcome] at refused
    cases refused
    cases notOfValue
  · have same := outcome.symm.trans refused
    cases same
    exact ⟨_, field, document, refused⟩

end Compiler

end MetadataFilter
