import MetadataFilter.Compiler
import MetadataFilter.Proofs.Filter.WellFormed
import MetadataFilter.Proofs.Fragment.Rendering

/-!
# What a compiler accepts

A compiler gives the rendering of every filter that passes its checks, and nothing else
(`Compiler.compileFilter_eq_ok_iff`). The strict modes make the same checks, so that one of them
accepts a filter when the other does (`Compiler.compileFilter_strict`).
-/

namespace MetadataFilter

namespace Compiler

variable {compiler : Compiler} {document : Json} {filter : Filter} {compiled : CompiledFilter}

/-- The filter of a document that the compiler accepts. -/
def accept (compiler : Compiler) (document : Json) : Except FilterError Filter := do
  let filter ← Filter.ofJson compiler.maxDepth document
  compiler.checkStrict filter
  return filter

theorem accept_eq_ok_iff :
    compiler.accept document = .ok filter ↔
      Filter.ofJson compiler.maxDepth document = .ok filter ∧
        compiler.checkStrict filter = .ok () := by
  simp only [accept, bind_eq_ok_iff, pure, Except.pure, Except.ok.injEq]
  constructor
  · rintro ⟨filter, read, ⟨⟩, types, rfl⟩
    exact ⟨read, types⟩
  · rintro ⟨read, types⟩
    exact ⟨filter, read, (), types, rfl⟩

theorem compile_eq_map_accept (compiler : Compiler) (document : Json) :
    compiler.compile document =
      (compiler.accept document).map (Filter.render compiler.mode) := by
  unfold compile accept
  cases Filter.ofJson compiler.maxDepth document with
  | error e => rfl
  | ok filter =>
    simp only [bind, Except.bind]
    cases compiler.checkStrict filter <;> rfl

/-- What a compiler gives is the rendering of the filter that it accepts. -/
theorem exists_accept_of_compile (compiles : compiler.compile document = .ok compiled) :
    ∃ filter, compiler.accept document = .ok filter ∧ filter.render compiler.mode = compiled := by
  rw [compile_eq_map_accept, map_eq_ok_iff] at compiles
  exact compiles

/-- Once a document is read, only the lists of its filter are looked at. -/
theorem compile_of_ok (read : Filter.ofJson compiler.maxDepth document = .ok filter) :
    compiler.compile document =
      (compiler.checkStrict filter).map fun _ => filter.render compiler.mode := by
  rw [compile, read]
  simp only [bind, Except.bind]
  cases compiler.checkStrict filter <;> rfl

theorem compileFilter_eq_ok_iff :
    compiler.compileFilter filter = .ok compiled ↔
      filter.validate compiler.maxDepth = .ok () ∧ compiler.checkStrict filter = .ok () ∧
        filter.render compiler.mode = compiled := by
  simp only [compileFilter, check_bind_eq_ok_iff, pure, Except.pure, Except.ok.injEq]

theorem fragment_toList (accepted : compiler.compileFilter filter = .ok compiled) :
    compiled.fragment.toList = Fragment.write compiler.mode 0 filter.template := by
  obtain ⟨-, -, rfl⟩ := compileFilter_eq_ok_iff.1 accepted
  exact filter.render_text compiler.mode

/-- An accepted filter is `always` or well formed. -/
theorem always_or_wellFormed (accepted : compiler.compileFilter filter = .ok compiled) :
    filter = .always ∨ filter.WellFormed :=
  Filter.always_or_wellFormed (compileFilter_eq_ok_iff.1 accepted).1

/-- What one strict mode accepts, every strict mode accepts. -/
theorem compileFilter_strict {mode other : Mode} {limit : Nat} (strict : mode.isStrict = true)
    (strict' : other.isStrict = true)
    (accepted : compileFilter ⟨mode, limit⟩ filter = .ok compiled) :
    compileFilter ⟨other, limit⟩ filter = .ok (filter.render other) := by
  obtain ⟨valid, types, -⟩ := compileFilter_eq_ok_iff.1 accepted
  refine compileFilter_eq_ok_iff.2 ⟨valid, ?_, rfl⟩
  rw [checkStrict, if_pos strict] at types
  rw [checkStrict, if_pos strict']
  exact types

end Compiler

end MetadataFilter
