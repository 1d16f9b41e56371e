import MetadataFilter.Proofs.Compiler.JsonText
import MetadataFilter.Proofs.Filter.ListTypes
import MetadataFilter.Proofs.Fragment.Escaping

/-!
# What a mode decides

A mode decides how a document is written, and whether mixed lists are refused, and nothing else
(`Compiler.compile_modes`). The strict modes accept the same documents and refuse the others for
the same reason; what the legacy mode refuses, they refuse for the same reason; what it accepts,
they refuse only for a mixed list. Where no text has a quote or a backslash there is nothing to
escape, and the legacy and the escaped mode write the same.
-/

namespace MetadataFilter

namespace Fragment

/-- The text has no character that escaping would change. -/
def Tame (text : String) : Prop := '\\' ∉ text.toList ∧ '"' ∉ text.toList

theorem escape_of_tame {text : List Char} (backslash : '\\' ∉ text) (quote : '"' ∉ text) :
    escape text = text := by
  rw [escape_eq_self_iff, List.any_eq_false]
  intro c mem
  have notBackslash : c ≠ '\\' := fun same => backslash (same ▸ mem)
  have notQuote : c ≠ '"' := fun same => quote (same ▸ mem)
  simp [isSpecial, notBackslash, notQuote]

theorem literalText_of_tame {text : String} (tame : Tame text) :
    literalText .legacy text = literalText .escaped text := by
  have strict : Mode.escaped.isStrict = true := rfl
  have notStrict : ¬Mode.legacy.isStrict = true := by decide
  rw [literalText, literalText, if_pos strict, if_neg notStrict, escape_of_tame tame.1 tame.2]

theorem valueText_of_tame {x : Scalar} (tame : ∀ text ∈ x.texts, Tame text) (number : Nat) :
    valueText .legacy number x = valueText .escaped number x := by
  cases x with
  | string s => exact literalText_of_tame (tame s List.mem_cons_self)
  | integer | float | bool => rfl

theorem write_of_tame {pieces : List Piece} (number : Nat)
    (tame : ∀ text ∈ pieces.flatMap (Piece.texts .escaped), Tame text) :
    write .legacy number pieces = write .escaped number pieces := by
  induction pieces generalizing number with
  | nil => rfl
  | cons piece rest ih =>
    rw [List.flatMap_cons] at tame
    have first : ∀ text ∈ piece.texts .escaped, Tame text := fun text mem =>
      tame text (List.mem_append_left _ mem)
    have others (number : Nat) := ih number fun text mem =>
      tame text (List.mem_append_right _ mem)
    cases piece with
    | code text => rw [write, write, others]
    | name field => rw [write, write, others, literalText_of_tame (first field List.mem_cons_self)]
    | value x => rw [write, write, others, valueText_of_tame first]

end Fragment

open Fragment

/-- Without quotes and backslashes there is nothing to escape. -/
theorem Filter.render_fragment_of_tame {filter : Filter}
    (tame : ∀ text ∈ filter.quotedTexts .escaped, Tame text) :
    (filter.render .legacy).fragment = (filter.render .escaped).fragment := by
  rw [← filter.template_texts] at tame
  rw [← String.toList_inj, filter.render_text, filter.render_text, write_of_tame 0 tame]

/-- The outcomes of a document in the three modes, beside what is read from it. -/
structure ModesAgree (parsed : Except FilterError Filter)
    (outcome : Mode → Except FilterError CompiledFilter) : Prop where
  /-- The strict modes accept the same documents and refuse the others with the same error. -/
  strict_alike : (outcome .escaped).map (fun _ => ()) = (outcome .parameterized).map fun _ => ()
  /-- What the legacy mode refuses, every mode refuses with the same error. -/
  legacy_error : ∀ error, outcome .legacy = .error error → ∀ mode, outcome mode = .error error
  /-- What the legacy mode accepts, the strict modes refuse exactly for a mixed list. -/
  legacy_ok : ∀ compiled, outcome .legacy = .ok compiled →
    ∃ filter, parsed = .ok filter ∧ ∀ mode, mode.isStrict = true →
      ((∃ error, outcome mode = .error error) ↔ filter.HasMixedList) ∧
      ∀ error, outcome mode = .error error → ∃ path reason, error = .invalid path reason
  /-- Without quotes and backslashes the legacy and the escaped mode write the same. -/
  fragment_eq : ∀ filter legacy escaped, parsed = .ok filter → outcome .legacy = .ok legacy →
    outcome .escaped = .ok escaped → (∀ text ∈ filter.quotedTexts .escaped, Tame text) →
    legacy.fragment = escaped.fragment
  /-- Only the parameterized mode has parameters. -/
  params_eq_nil : ∀ mode compiled, mode ≠ .parameterized → outcome mode = .ok compiled →
    compiled.params = []

namespace Compiler

variable {limit : Nat} {document : Json}

theorem compile_of_error {error : FilterError} (read : Filter.ofJson limit document = .error error)
    (mode : Mode) : compile ⟨mode, limit⟩ document = .error error := by
  simp only [compile, read]
  rfl

theorem compile_legacy {filter : Filter} (read : Filter.ofJson limit document = .ok filter) :
    compile ⟨.legacy, limit⟩ document = .ok (filter.render .legacy) := by
  rw [compile_of_ok read]
  rfl

theorem compile_strict {filter : Filter} (read : Filter.ofJson limit document = .ok filter)
    {mode : Mode} (strict : mode.isStrict = true) :
    compile ⟨mode, limit⟩ document = filter.checkListTypes.map fun _ => filter.render mode := by
  rw [compile_of_ok read, checkStrict, if_pos strict]

theorem modesAgree_of_error {error : FilterError}
    (read : Filter.ofJson limit document = .error error) :
    ModesAgree (Filter.ofJson limit document) fun mode => compile ⟨mode, limit⟩ document where
  strict_alike := by rw [compile_of_error read, compile_of_error read]
  legacy_error := by
    intro error' legacy mode
    rw [compile_of_error read] at legacy ⊢
    exact legacy
  legacy_ok := by
    intro compiled legacy
    rw [compile_of_error read] at legacy
    cases legacy
  fragment_eq := by
    intro filter legacy escaped read'
    rw [read] at read'
    cases read'
  params_eq_nil := by
    intro mode compiled _ outcome
    rw [compile_of_error read] at outcome
    cases outcome

theorem strict_error_iff {filter : Filter} (read : Filter.ofJson limit document = .ok filter)
    {mode : Mode} (strict : mode.isStrict = true) :
    (∃ error, compile ⟨mode, limit⟩ document = .error error) ↔ filter.HasMixedList := by
  have types := Filter.checkListTypes_eq_ok_iff (Filter.always_or_wellFormed_of_ofJson read)
  rw [compile_strict read strict, ← not_iff_not, ← types]
  cases filter.checkListTypes <;> simp [Except.map]

theorem modesAgree_of_ok {filter : Filter} (read : Filter.ofJson limit document = .ok filter) :
    ModesAgree (Filter.ofJson limit document) fun mode => compile ⟨mode, limit⟩ document where
  strict_alike := by
    rw [compile_strict read rfl, compile_strict read rfl]
    cases filter.checkListTypes <;> rfl
  legacy_error := by
    intro error legacy
    rw [compile_legacy read] at legacy
    cases legacy
  legacy_ok := by
    intro compiled _
    refine ⟨filter, read, fun mode strict => ⟨strict_error_iff read strict, ?_⟩⟩
    intro error refused
    rw [compile_strict read strict] at refused
    cases types : filter.checkListTypes with
    | ok =>
      rw [types] at refused
      cases refused
    | error e =>
      rw [types] at refused
      cases refused
      obtain ⟨path, first, other, rfl⟩ := Filter.mixedList_of_checkListTypes types
      exact ⟨path, _, rfl⟩
  fragment_eq := by
    intro filter' legacy escaped read' legacyOk escapedOk tame
    obtain rfl := Except.ok.inj (read.symm.trans read')
    rw [compile_legacy read] at legacyOk
    rw [compile_strict read rfl, map_eq_ok_iff] at escapedOk
    obtain ⟨-, -, rfl⟩ := escapedOk
    cases legacyOk
    exact Filter.render_fragment_of_tame tame
  params_eq_nil := by
    intro mode compiled inPlace outcome
    obtain ⟨filter, -, rfl⟩ := exists_accept_of_compile outcome
    exact Filter.render_params_eq_nil inPlace filter

/-- **A mode decides how a document is written and whether mixed lists are refused, and nothing
else.** -/
theorem compile_modes (limit : Nat) (document : Json) :
    ModesAgree (Filter.ofJson limit document) fun mode => compile ⟨mode, limit⟩ document := by
  cases read : Filter.ofJson limit document with
  | error e => exact read ▸ modesAgree_of_error read
  | ok filter => exact read ▸ modesAgree_of_ok read

/-- A number and a string in one list, below a connective, beside a list of two kinds of numbers. -/
theorem compile_modes_of_mixed_list :
    let mixed : Filter := .compare .oneOf "a" (.list [.integer 1, .string "x"])
    let numbers : Filter := .compare .noneOf "b" (.list [.integer 1, .float (.zero true)])
    let document := (Filter.combine .and [numbers, mixed]).toJson
    (∃ compiled, compile ⟨.legacy, 2⟩ document = .ok compiled ∧ compiled.params = []) ∧
    (∃ path reason, compile ⟨.escaped, 2⟩ document = .error (.invalid path reason)) ∧
    ∃ path reason, compile ⟨.parameterized, 2⟩ document = .error (.invalid path reason) := by
  intro mixed numbers document
  have read : Filter.ofJson 2 document = .ok (.combine .and [numbers, mixed]) := rfl
  have agree := compile_modes 2 document
  have legacy := compile_legacy read
  have some : Filter.HasMixedList (.combine .and [numbers, mixed]) := by
    have second : [numbers, mixed][1]? = some mixed := rfl
    refine ⟨_, .oneOf, "a", _, .operand second (.root mixed), rfl, ?_⟩
    exact ⟨.integer 1, by simp, .string "x", by simp, by decide⟩
  obtain ⟨filter, read', strict⟩ := agree.legacy_ok _ legacy
  obtain rfl := Except.ok.inj (read.symm.trans read')
  have refused (mode : Mode) (isStrict : mode.isStrict = true) :
      ∃ path reason, compile ⟨mode, 2⟩ document = .error (.invalid path reason) := by
    obtain ⟨mixes, invalid⟩ := strict mode isStrict
    obtain ⟨error, outcome⟩ := mixes.2 some
    obtain ⟨path, reason, rfl⟩ := invalid error outcome
    exact ⟨path, reason, outcome⟩
  exact ⟨⟨_, legacy, agree.params_eq_nil .legacy _ nofun legacy⟩, refused .escaped rfl,
    refused .parameterized rfl⟩

end Compiler

end MetadataFilter
