import MetadataFilter.Proofs.Compiler.Accepted
import MetadataFilter.Proofs.Fragment.Scanner

/-!
# No text gets out of its quotes

The literals of a fragment of a strict mode are the field names of the filter and, in the escaped
mode, its texts (`Filter.quotedTexts`), whatever they contain. What stands outside the literals
depends on the filter only up to these texts (`Filter.eraseText`); see
`Compiler.compileFilter_quotes_texts`.
-/

namespace MetadataFilter

open Fragment

def Literal.eraseText : Literal → Literal
  | .scalar x => .scalar x.eraseText
  | .list xs => .list (xs.map Scalar.eraseText)

namespace Filter

mutual

/-- The filter with the empty text for every field name and every text it compares with. -/
def eraseText : Filter → Filter
  | .always => .always
  | .compare op _ value => .compare op "" value.eraseText
  | .combine op operands => .combine op (eraseTextOfAll operands)

def eraseTextOfAll : List Filter → List Filter
  | [] => []
  | operand :: rest => operand.eraseText :: eraseTextOfAll rest

end

mutual

/-- For each comparison, from left to right, its field name and, in the escaped mode, the texts it
compares with. -/
def quotedTexts (mode : Mode) : Filter → List String
  | .always => []
  | .compare _ field value =>
    field :: if mode = .escaped then value.scalars.flatMap Scalar.texts else []
  | .combine _ operands => quotedTextsOfAll mode operands

def quotedTextsOfAll (mode : Mode) : List Filter → List String
  | [] => []
  | operand :: rest => operand.quotedTexts mode ++ quotedTextsOfAll mode rest

end

end Filter

/-! ## Texts of a template -/

theorem listTemplate_eraseText (xs : List Scalar) :
    listTemplate (xs.map Scalar.eraseText) = (listTemplate xs).map Piece.eraseText := by
  fun_induction listTemplate xs <;> simp_all [listTemplate, Piece.eraseText]

theorem Literal.template_eraseText (value : Literal) :
    value.eraseText.template = value.template.map Piece.eraseText := by
  cases value <;>
    simp [Literal.eraseText, Literal.template, listTemplate_eraseText, Piece.eraseText]

theorem listTemplate_texts (mode : Mode) (xs : List Scalar) :
    (listTemplate xs).flatMap (Piece.texts mode) =
      if mode = .escaped then xs.flatMap Scalar.texts else [] := by
  by_cases escaped : mode = .escaped <;> fun_induction listTemplate xs <;> simp_all [Piece.texts]

theorem Literal.template_texts (mode : Mode) (value : Literal) :
    value.template.flatMap (Piece.texts mode) =
      if mode = .escaped then value.scalars.flatMap Scalar.texts else [] := by
  cases value <;> simp [Literal.template, Literal.scalars, listTemplate_texts, Piece.texts]

theorem Literal.finite_of_fits {op : CompareOp} {value : Literal} (h : value.Fits op) :
    ∀ x ∈ value.scalars, x.Finite := by
  cases value with
  | scalar x =>
    intro y mem
    obtain rfl := List.mem_singleton.1 mem
    exact h.2
  | list xs => exact h.2.2

namespace Filter

mutual

theorem template_eraseText : (filter : Filter) →
    filter.eraseText.template = filter.template.map Piece.eraseText
  | .always => rfl
  | .compare op field value => by
    simp [eraseText, template, Piece.eraseText, value.template_eraseText]
  | .combine op operands => by
    simp [eraseText, template, Piece.eraseText, joinTemplates_eraseText op operands]

theorem joinTemplates_eraseText (op : Connective) : (operands : List Filter) →
    joinTemplates op (eraseTextOfAll operands) = (joinTemplates op operands).map Piece.eraseText
  | [] => rfl
  | [operand] => template_eraseText operand
  | operand :: next :: rest => by
    have others := joinTemplates_eraseText op (next :: rest)
    rw [eraseTextOfAll] at others
    simp [eraseTextOfAll, joinTemplates, Piece.eraseText, template_eraseText operand, others]

end

mutual

theorem template_texts (mode : Mode) : (filter : Filter) →
    filter.template.flatMap (Piece.texts mode) = filter.quotedTexts mode
  | .always => rfl
  | .compare op field value => by simp [quotedTexts, template, Piece.texts, value.template_texts]
  | .combine op operands => by
    simp [quotedTexts, template, Piece.texts, joinTemplates_texts mode op operands]

theorem joinTemplates_texts (mode : Mode) (op : Connective) : (operands : List Filter) →
    (joinTemplates op operands).flatMap (Piece.texts mode) = quotedTextsOfAll mode operands
  | [] => rfl
  | [operand] => by simp [quotedTextsOfAll, joinTemplates, template_texts mode operand]
  | operand :: next :: rest => by
    have others := joinTemplates_texts mode op (next :: rest)
    rw [quotedTextsOfAll] at others
    simp [quotedTextsOfAll, joinTemplates, Piece.texts, template_texts mode operand, others]

end

mutual

theorem WellFormed.finite : {filter : Filter} → filter.WellFormed → ∀ x ∈ filter.scalars, x.Finite
  | .compare _ _ _, h => Literal.finite_of_fits h.2
  | .combine _ _, h => AllWellFormed.finite h.2

theorem AllWellFormed.finite : {operands : List Filter} → AllWellFormed operands →
    ∀ x ∈ scalarsOfAll operands, x.Finite
  | [], _ => nofun
  | _ :: _, h => by
    intro x mem
    rcases List.mem_append.1 mem with mem | mem
    · exact h.1.finite x mem
    · exact AllWellFormed.finite h.2 x mem

end

theorem template_plain {filter : Filter} (h : filter.WellFormed) :
    ∀ piece ∈ filter.template, piece.Plain := by
  intro piece mem
  cases piece with
  | code text => exact (code_tame mem).1
  | name field => trivial
  | value x =>
    have here : x ∈ values filter.template := List.mem_filterMap.2 ⟨.value x, mem, rfl⟩
    rw [filter.values_template] at here
    exact h.finite x here

theorem plain_of_always_or_wellFormed {filter : Filter} (h : filter = .always ∨ filter.WellFormed) :
    ∀ piece ∈ filter.template, piece.Plain := by
  rcases h with rfl | wellFormed
  · exact nofun
  · exact template_plain wellFormed

theorem scans_render {filter : Filter} (plain : ∀ piece ∈ filter.template, piece.Plain)
    {mode : Mode} (strict : mode.isStrict = true) :
    Scans (filter.render mode).fragment.toList (write mode 0 filter.eraseText.template)
      ((filter.quotedTexts mode).map String.toList) := by
  rw [filter.render_text, filter.template_eraseText, ← filter.template_texts]
  exact scans_write strict 0 plain

end Filter

/-! ## Fragments -/

namespace Compiler

theorem scans_fragment {compiler : Compiler} {filter : Filter} {compiled : CompiledFilter}
    (strict : compiler.mode.isStrict = true)
    (accepted : compiler.compileFilter filter = .ok compiled) :
    Scans compiled.fragment.toList (write compiler.mode 0 filter.eraseText.template)
      ((filter.quotedTexts compiler.mode).map String.toList) := by
  have plain := Filter.plain_of_always_or_wellFormed (always_or_wellFormed accepted)
  obtain ⟨-, -, rfl⟩ := compileFilter_eq_ok_iff.1 accepted
  exact Filter.scans_render plain strict

/-- **No text gets out of its quotes** in the strict modes: a fragment ends outside a literal, its
literals are the texts of the filter in their order, and what is outside the literals is the same
for filters that differ in these texts only. -/
theorem compileFilter_quotes_texts {mode : Mode} {limit : Nat} {filter : Filter}
    {compiled : CompiledFilter} (strict : mode.isStrict = true)
    (accepted : compileFilter ⟨mode, limit⟩ filter = .ok compiled) :
    (scan compiled.fragment.toList).place = .outside ∧
    (scan compiled.fragment.toList).literals = (filter.quotedTexts mode).map String.toList ∧
    ∀ (otherLimit : Nat) (other : Filter) (compiledOther : CompiledFilter),
      compileFilter ⟨mode, otherLimit⟩ other = .ok compiledOther →
      other.eraseText = filter.eraseText →
      (scan compiledOther.fragment.toList).code = (scan compiled.fragment.toList).code := by
  have scans := (scans_fragment strict accepted).scan_eq
  refine ⟨by rw [scans], by rw [scans], fun otherLimit other compiledOther acceptedOther same => ?_⟩
  rw [scans, (scans_fragment strict acceptedOther).scan_eq, same]

/-- A text that imitates the end of a literal and a further comparison stays one literal. -/
theorem compileFilter_quotes_imitation :
    let attack : Filter := .compare .eq "a" (.scalar (.string "\\\") or \"\" = \""))
    let plain : Filter := .compare .eq "b" (.scalar (.string "x"))
    let fragment (filter : Filter) : List Char := (filter.render .escaped).fragment.toList
    compileFilter ⟨.escaped, 1⟩ attack = .ok (attack.render .escaped) ∧
      (scan (fragment attack)).place = .outside ∧
      (scan (fragment attack)).literals = ["a".toList, "\\\") or \"\" = \"".toList] ∧
      (scan (fragment plain)).code = (scan (fragment attack)).code := by
  intro attack plain fragment
  have accepted : compileFilter ⟨.escaped, 1⟩ attack = .ok (attack.render .escaped) :=
    compileFilter_eq_ok_iff.2 ⟨rfl, rfl, rfl⟩
  have acceptedPlain : compileFilter ⟨.escaped, 1⟩ plain = .ok (plain.render .escaped) :=
    compileFilter_eq_ok_iff.2 ⟨rfl, rfl, rfl⟩
  obtain ⟨outside, literals, code⟩ := compileFilter_quotes_texts rfl accepted
  exact ⟨accepted, outside, literals, code 1 plain _ acceptedPlain rfl⟩

end Compiler

end MetadataFilter
