import MetadataFilter.Proofs.Compiler.FrontEnds
import MetadataFilter.Proofs.Compiler.Modes
import MetadataFilter.Proofs.Document.Shorthand
import MetadataFilter.Proofs.Filter.ListTypes

/-!
# An equality may be written with its keyword or without

Every compiler gives the same fragment and the same parameters for a document and for the document
with `$eq` at every equality, or refuses both for the same reason (`Compiler.compile_expand`). The
paths of the two refusals differ only if the value of an equality without its keyword is at fault.
-/

namespace MetadataFilter

theorem spells_always_expand_iff (document : Json) :
    Spells document.expand .always ↔ Spells document .always := by
  rw [spells_always_iff, spells_always_iff]
  match document with
  | .null | .bool _ | .number _ | .string _ | .array _ | .object [] | .object (_ :: _ :: _) =>
    exact Iff.rfl
  | .object [(key, value)] =>
    rw [Json.expand]
    split_ifs <;> simp

/-- The path of a mixed list ends with a keyword, so that it leads to no field. -/
theorem noShortValue_of_checkStrict {compiler : Compiler} {filter : Filter} {path : Path}
    {reason : Reason} (h : compiler.checkStrict filter = .error (.invalid path reason))
    (document : Json) : document.NoShortValue path := by
  unfold Compiler.checkStrict at h
  split at h
  · obtain ⟨_, node, _, op, first, other, -, -, -, same⟩ := Filter.checkListTypes_eq_error_iff.1 h
    obtain ⟨rfl, -⟩ := FilterError.invalid.inj same
    rintro place field value ⟨-, named⟩ same
    obtain ⟨-, keyword⟩ := List.append_inj' same rfl
    cases keyword
    rw [namesField_of_ne_field (by simp)] at named
    cases named
  · cases h

namespace Filter

theorem ofJson_expand (limit : Nat) (document : Json) :
    (∃ filter, ofJson limit document = .ok filter ∧ ofJson limit document.expand = .ok filter) ∨
    ∃ fault fault', document.ExpandedFault fault fault' ∧
      ofJson limit document = .error (fault.atLimit limit) ∧
      ofJson limit document.expand = .error (fault'.atLimit limit) := by
  by_cases empty : Spells document .always
  · have same : document.expand = document := by
      rcases (spells_always_iff document).1 empty with rfl | rfl <;> rfl
    rw [same]
    exact .inl ⟨.always, ofJson_of_spells_always empty limit, ofJson_of_spells_always empty limit⟩
  · have notEmpty : ¬Spells document.expand .always := by rwa [spells_always_expand_iff]
    rw [ofJson_eq_ofExpression empty, ofJson_eq_ofExpression notEmpty]
    rcases ofExpression_expand limit document with
      ⟨filter, read, read'⟩ | ⟨fault, fault', same, refused, refused'⟩
    · rw [read, read']
      exact .inl ⟨filter, rfl, rfl⟩
    · rw [refused, refused']
      exact .inr ⟨fault, fault', same, rfl, rfl⟩

end Filter

namespace Compiler

/-- **Every compiler treats an equality alike with its keyword and without.** -/
theorem compile_expand (compiler : Compiler) (document : Json) :
    (∃ compiled, compiler.compile document = .ok compiled ∧
      compiler.compile document.expand = .ok compiled) ∨
    (compiler.compile document = .error (.depthExceeded compiler.maxDepth) ∧
      compiler.compile document.expand = .error (.depthExceeded compiler.maxDepth)) ∨
    (∃ path reason, document.NoShortValue path ∧
      compiler.compile document = .error (.invalid path reason) ∧
      compiler.compile document.expand = .error (.invalid path reason)) ∨
    ∃ place field value reason path expandedPath, document.ShortAt place field value ∧
      Literal.ofJson .eq value = .error reason ∧
      path = place ++ [.key field] ∧ path.text = place.text ++ "." ++ field ∧
      expandedPath = place ++ [.key CompareOp.eq.keyword, .key field] ∧
      expandedPath.text = place.text ++ ".$eq" ++ "." ++ field ∧
      compiler.compile document = .error (.invalid path reason) ∧
      compiler.compile document.expand = .error (.invalid expandedPath reason) := by
  rcases Filter.ofJson_expand compiler.maxDepth document with
    ⟨filter, read, read'⟩ | ⟨fault, fault', same, refused, refused'⟩
  · rw [compile_of_ok read, compile_of_ok read']
    cases strict : compiler.checkStrict filter with
    | ok => exact .inl ⟨_, rfl, rfl⟩
    | error error =>
      obtain ⟨path, first, other, rfl⟩ := checkStrict_error strict
      have elsewhere := noShortValue_of_checkStrict strict document
      exact .inr (.inr (.inl ⟨path, _, elsewhere, rfl, rfl⟩))
  · have compiles := compile_of_error refused compiler.mode
    have compiles' := compile_of_error refused' compiler.mode
    cases same with
    | tooDeep => exact .inr (.inl ⟨compiles, compiles'⟩)
    | elsewhere reason other => exact .inr (.inr (.inl ⟨_, reason, other, compiles, compiles'⟩))
    | @value place field value reason short unfit =>
      refine .inr (.inr (.inr ⟨place, field, value, reason, _, _, short, unfit, rfl,
        Path.text_append_key place field, rfl, ?_, compiles, compiles'⟩))
      have keyword : Segment.text (.key CompareOp.eq.keyword) = ".$eq" := rfl
      rw [← List.singleton_append, ← List.append_assoc, Path.text_append_key,
        Path.text_append_singleton, keyword]

/-- The keyword comes into the path of the second operand, whose value is a list. -/
theorem compile_expand_of_list_value :
    let document : Json := .object [("$or", .array [.object [("a", .bool true)],
      .object [("b", .array [.null])]])]
    let path : Path := [.key "$or", .index 1, .key "b"]
    let expandedPath : Path := [.key "$or", .index 1, .key "$eq", .key "b"]
    compile ⟨.legacy, 2⟩ document = .error (.invalid path (.listNotAccepted .eq)) ∧
    compile ⟨.legacy, 2⟩ document.expand = .error (.invalid expandedPath (.listNotAccepted .eq)) ∧
    path.text = "filter.$or[1].b" ∧ expandedPath.text = "filter.$or[1].$eq.b" := by
  intro document path expandedPath
  have refused : compile ⟨.legacy, 2⟩ document =
      .error (.invalid path (.listNotAccepted .eq)) := rfl
  have short : document.ShortAt [.key "$or", .index 1] "b" (.array [.null]) :=
    ⟨.operand rfl rfl (.root _), rfl⟩
  rcases compile_expand ⟨.legacy, 2⟩ document with
    ⟨_, compiles, -⟩ | ⟨tooDeep, -⟩ | ⟨_, _, elsewhere, same, -⟩ |
    ⟨place, field, value, reason, _, _, -, -, rfl, -, rfl, -, same, expanded⟩
  · rw [refused] at compiles
    cases compiles
  · rw [refused] at tooDeep
    cases tooDeep
  · rw [refused] at same
    cases same
    exact absurd rfl (elsewhere _ _ _ short)
  · rw [refused] at same
    obtain ⟨paths, rfl⟩ := FilterError.invalid.inj (Except.error.inj same)
    have split : path = ([.key "$or", .index 1] : Path) ++ [.key "b"] := rfl
    obtain ⟨rfl, last⟩ := List.append_inj' (split.symm.trans paths) rfl
    cases last
    exact ⟨refused, expanded, rfl, rfl⟩

end Compiler

end MetadataFilter
