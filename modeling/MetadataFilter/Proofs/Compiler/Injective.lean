import MetadataFilter.Proofs.Compiler.Accepted
import MetadataFilter.Proofs.Fragment.Unambiguous

/-!
# Different filters, different fragments

In the strict modes no two accepted filters are compiled to the same thing
(`Compiler.compileFilter_injective`). For a filter other than `always` this is
`Filter.text_unique` with nothing behind the text; the fragment of `always`, and of no other
filter, is empty. In the parameterized mode the common supply of scalars is read off the common
parameters.
-/

namespace MetadataFilter

open Fragment

namespace Filter

theorem write_ne_nil {mode : Mode} {number : Nat} {filter : Filter} (h : filter.WellFormed) :
    write mode number filter.template ≠ [] := by
  rw [Ne, write_eq_nil_iff]
  rintro rfl
  exact h

theorem template_injective {mode : Mode} (strict : mode.isStrict = true) {a b : Filter}
    (ha : a = .always ∨ a.WellFormed) (hb : b = .always ∨ b.WellFormed)
    (scalars : mode = .parameterized → a.scalars = b.scalars)
    (h : write mode 0 a.template = write mode 0 b.template) : a = b := by
  rcases ha with rfl | ha <;> rcases hb with rfl | hb
  · rfl
  · exact absurd h.symm (write_ne_nil hb)
  · exact absurd h (write_ne_nil ha)
  · let supply (i : Nat) : Scalar := (a.scalars[i]?).getD (.bool true)
    have takenA : TakenFrom supply mode 0 a.scalars := by
      intro _ i x at_i
      simp only [supply, Nat.zero_add, at_i, Option.getD_some]
    have takenB : TakenFrom supply mode 0 b.scalars := by
      intro parameterized
      exact scalars parameterized ▸ takenA parameterized
    have closed : Closed [] := nofun
    exact (text_unique strict closed closed a b ha hb takenA takenB (congrArg (· ++ []) h)).1

end Filter

namespace Compiler

/-- **A compiled filter determines the filter**: its fragment does in the escaped mode, its fragment
with the parameters in the parameterized mode. -/
theorem compileFilter_injective (limit : Nat) (a b : Filter)
    (compiledA compiledB : CompiledFilter) :
    (compileFilter ⟨.escaped, limit⟩ a = .ok compiledA →
      compileFilter ⟨.escaped, limit⟩ b = .ok compiledB →
      compiledA.fragment = compiledB.fragment → a = b) ∧
    (compileFilter ⟨.parameterized, limit⟩ a = .ok compiledA →
      compileFilter ⟨.parameterized, limit⟩ b = .ok compiledB →
      compiledA.fragment = compiledB.fragment → compiledA.params = compiledB.params → a = b) := by
  have reading {mode : Mode} (strict : mode.isStrict = true)
      (acceptedA : compileFilter ⟨mode, limit⟩ a = .ok compiledA)
      (acceptedB : compileFilter ⟨mode, limit⟩ b = .ok compiledB)
      (scalars : mode = .parameterized → a.scalars = b.scalars)
      (same : compiledA.fragment = compiledB.fragment) : a = b := by
    refine Filter.template_injective strict (always_or_wellFormed acceptedA)
      (always_or_wellFormed acceptedB) scalars ?_
    have texts := congrArg String.toList same
    rwa [fragment_toList acceptedA, fragment_toList acceptedB] at texts
  constructor
  · intro acceptedA acceptedB same
    exact reading rfl acceptedA acceptedB nofun same
  · intro acceptedA acceptedB same params
    refine reading rfl acceptedA acceptedB (fun _ => ?_) same
    obtain ⟨-, -, rfl⟩ := compileFilter_eq_ok_iff.1 acceptedA
    obtain ⟨-, -, rfl⟩ := compileFilter_eq_ok_iff.1 acceptedB
    have binds := a.render_binds
    exact binds.scalars_unique (params ▸ b.render_binds)

/-- A filter and what is read from its document are compiled to the same, in both modes, hence they
are the same; the two zeros are not. -/
theorem compileFilter_injective_year :
    let written : Filter := .compare .eq "year" (.scalar (.integer 1))
    let read : Filter := (Filter.ofJson 1 written.toJson).toOption.getD .always
    let zero (negative : Bool) : Filter := .compare .eq "x" (.scalar (.float (.zero negative)))
    (∀ mode, compileFilter ⟨mode, 1⟩ written = .ok (written.render mode) ∧
      compileFilter ⟨mode, 1⟩ read = .ok (read.render mode)) ∧
    ((written.render .escaped).fragment = (read.render .escaped).fragment ∧ written = read) ∧
    (written.render .parameterized = read.render .parameterized ∧ written = read) ∧
    ((zero false).render .escaped).fragment ≠ ((zero true).render .escaped).fragment := by
  intro written read zero
  have accepted (mode : Mode) :
      compileFilter ⟨mode, 1⟩ written = .ok (written.render mode) ∧
        compileFilter ⟨mode, 1⟩ read = .ok (read.render mode) := by
    cases mode <;> exact ⟨compileFilter_eq_ok_iff.2 ⟨rfl, rfl, rfl⟩,
      compileFilter_eq_ok_iff.2 ⟨rfl, rfl, rfl⟩⟩
  have acceptedZero (negative : Bool) :
      compileFilter ⟨.escaped, 1⟩ (zero negative) = .ok ((zero negative).render .escaped) :=
    compileFilter_eq_ok_iff.2 ⟨rfl, rfl, rfl⟩
  refine ⟨accepted, ⟨rfl, ?_⟩, ⟨rfl, ?_⟩, fun same => ?_⟩
  · obtain ⟨acceptedWritten, acceptedRead⟩ := accepted .escaped
    exact (compileFilter_injective 1 written read _ _).1 acceptedWritten acceptedRead rfl
  · obtain ⟨acceptedWritten, acceptedRead⟩ := accepted .parameterized
    exact (compileFilter_injective 1 written read _ _).2 acceptedWritten acceptedRead rfl rfl
  · have equal := (compileFilter_injective 1 (zero false) (zero true) _ _).1 (acceptedZero false)
      (acceptedZero true) same
    simp [zero, Binary64.zero, Binary64.ofRank] at equal

end Compiler

end MetadataFilter
