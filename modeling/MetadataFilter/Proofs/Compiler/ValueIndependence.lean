import MetadataFilter.Compiler
import MetadataFilter.Proofs.Document.Outline
import MetadataFilter.Proofs.Fragment.Rendering

/-!
# Parameterized fragments do not depend on the values

In the parameterized mode a compiler sees the outline of a document only: if two documents have the
same outline, both are refused with the same error, or both give the same fragment, and their
parameters have the same names and types (`Compiler.compile_parameterized_of_outline_eq`). So a
value can change nothing but the parameter that holds it.
-/

namespace MetadataFilter

open Fragment

/-! ## List types -/

theorem Scalar.family_outline (x : Scalar) : x.outline.family = x.family := by
  cases x <;> rfl

theorem Scalar.mixedFamilies?_outline (xs : List Scalar) :
    Scalar.mixedFamilies? (xs.map Scalar.outline) = Scalar.mixedFamilies? xs := by
  cases xs with
  | nil => rfl
  | cons first rest =>
    rw [List.map_cons, Scalar.mixedFamilies?, Scalar.mixedFamilies?, List.find?_map,
      Option.map_map, first.family_outline]
    simp only [Function.comp_def, Scalar.family_outline]

theorem Literal.mixedFamilies?_outline (value : Literal) :
    (value.mapScalars Scalar.outline).mixedFamilies? = value.mixedFamilies? := by
  cases value with
  | scalar x => rfl
  | list xs => exact Scalar.mixedFamilies?_outline xs

namespace Filter

mutual

theorem mixedList?_outline : (filter : Filter) →
    (filter.mapScalars Scalar.outline).mixedList? = filter.mixedList?
  | .always => rfl
  | .compare op field value => by
    rw [mapScalars, mixedList?, mixedList?, value.mixedFamilies?_outline]
  | .combine op operands => by
    rw [mapScalars, mixedList?, mixedList?, mixedListAmong?_outline 0 operands]

theorem mixedListAmong?_outline (position : Nat) : (operands : List Filter) →
    mixedListAmong? position (mapScalarsOfAll Scalar.outline operands) =
      mixedListAmong? position operands
  | [] => rfl
  | operand :: rest => by
    rw [mapScalarsOfAll, mixedListAmong?, mixedListAmong?, mixedList?_outline operand,
      mixedListAmong?_outline (position + 1) rest]

end

theorem checkListTypes_outline (filter : Filter) :
    filter.outline.checkListTypes = filter.checkListTypes := by
  rw [checkListTypes, checkListTypes, outline, mixedList?_outline]

end Filter

/-! ## Templates -/

def Fragment.Piece.mapScalar (f : Scalar → Scalar) : Piece → Piece
  | .code text => .code text
  | .name field => .name field
  | .value x => .value (f x)

theorem Fragment.values_mapScalar (f : Scalar → Scalar) (pieces : List Piece) :
    values (pieces.map (Piece.mapScalar f)) = (values pieces).map f := by
  induction pieces with
  | nil => rfl
  | cons piece rest ih => cases piece <;> simp [Piece.mapScalar, ih]

theorem listTemplate_mapScalar (f : Scalar → Scalar) (xs : List Scalar) :
    listTemplate (xs.map f) = (listTemplate xs).map (Piece.mapScalar f) := by
  fun_induction listTemplate xs <;> simp_all [listTemplate, Piece.mapScalar]

theorem Literal.template_mapScalars (f : Scalar → Scalar) (value : Literal) :
    (value.mapScalars f).template = value.template.map (Piece.mapScalar f) := by
  cases value <;>
    simp [Literal.mapScalars, Literal.template, listTemplate_mapScalar, Piece.mapScalar]

namespace Filter

mutual

theorem template_mapScalars (f : Scalar → Scalar) : (filter : Filter) →
    (filter.mapScalars f).template = filter.template.map (Piece.mapScalar f)
  | .always => rfl
  | .compare op field value => by
    simp [mapScalars, template, Piece.mapScalar, value.template_mapScalars]
  | .combine op operands => by
    simp [mapScalars, template, Piece.mapScalar, joinTemplates_mapScalars f op operands]

theorem joinTemplates_mapScalars (f : Scalar → Scalar) (op : Connective) :
    (operands : List Filter) → joinTemplates op (mapScalarsOfAll f operands) =
      (joinTemplates op operands).map (Piece.mapScalar f)
  | [] => rfl
  | [operand] => template_mapScalars f operand
  | operand :: next :: rest => by
    have others := joinTemplates_mapScalars f op (next :: rest)
    rw [mapScalarsOfAll] at others
    simp [mapScalarsOfAll, joinTemplates, Piece.mapScalar, template_mapScalars f operand, others]

end

theorem scalars_mapScalars (f : Scalar → Scalar) (filter : Filter) :
    (filter.mapScalars f).scalars = filter.scalars.map f := by
  rw [← values_template, template_mapScalars, values_mapScalar, values_template]

end Filter

/-! ## Fragments and parameters -/

theorem Fragment.parameterType_outline (x : Scalar) :
    parameterType x.outline = parameterType x := by
  cases x <;> rfl

/-- A placeholder shows the type of its scalar and nothing else of it. -/
theorem Fragment.write_outline (number : Nat) (pieces : List Piece) :
    write .parameterized number (pieces.map (Piece.mapScalar Scalar.outline)) =
      write .parameterized number pieces := by
  induction pieces generalizing number with
  | nil => rfl
  | cons piece rest ih =>
    cases piece with
    | code text => rw [List.map_cons, Piece.mapScalar, write, write, ih]
    | name field => rw [List.map_cons, Piece.mapScalar, write, write, ih]
    | value x =>
      have same :
          valueText .parameterized number x.outline = valueText .parameterized number x := by
        rw [valueText, valueText, placeholder, placeholder, parameterType_outline]
      rw [List.map_cons, Piece.mapScalar, write, write, ih, same]

namespace Filter

theorem render_fragment_outline (filter : Filter) :
    (filter.outline.render .parameterized).fragment = (filter.render .parameterized).fragment := by
  apply String.toList_inj.1
  rw [render_text, render_text, outline, template_mapScalars, write_outline]

theorem render_params_outline (filter : Filter) :
    (filter.outline.render .parameterized).params =
      (filter.render .parameterized).params.map fun entry => (entry.1, entry.2.outline) := by
  have binds := filter.outline.render_binds
  rw [outline, scalars_mapScalars] at binds
  exact binds.params_unique (filter.render_binds.map Scalar.outline)

/-- Filters with the same outline have the same fragment, and parameters of the same types. -/
theorem render_of_outline_eq {a b : Filter} (same : a.outline = b.outline) :
    (a.render .parameterized).fragment = (b.render .parameterized).fragment ∧
    ((a.render .parameterized).params.map fun (name, x) => (name, parameterType x)) =
      (b.render .parameterized).params.map fun (name, x) => (name, parameterType x) := by
  have types (filter : Filter) :
      ((filter.render .parameterized).params.map fun (name, x) => (name, parameterType x)) =
        (filter.outline.render .parameterized).params.map
          fun (name, x) => (name, parameterType x) := by
    rw [render_params_outline, List.map_map]
    simp only [Function.comp_def, parameterType_outline]
  constructor
  · rw [← render_fragment_outline, same, render_fragment_outline]
  · rw [types a, same, types b]

end Filter

namespace Compiler

/-- **A parameterized fragment does not depend on the values of a document.** -/
theorem compile_parameterized_of_outline_eq (limit : Nat) {v w : Json}
    (same : v.outline = w.outline) :
    (∃ error, compile ⟨.parameterized, limit⟩ v = .error error ∧
      compile ⟨.parameterized, limit⟩ w = .error error) ∨
    ∃ compiledV compiledW : CompiledFilter,
      compile ⟨.parameterized, limit⟩ v = .ok compiledV ∧
      compile ⟨.parameterized, limit⟩ w = .ok compiledW ∧
      compiledV.fragment = compiledW.fragment ∧
      (compiledV.params.map fun (name, x) => (name, parameterType x)) =
        compiledW.params.map fun (name, x) => (name, parameterType x) := by
  have read : (Filter.ofJson limit v).map Filter.outline =
      (Filter.ofJson limit w).map Filter.outline := by
    rw [← Filter.ofJson_outline, ← Filter.ofJson_outline, same]
  unfold compile
  rcases error_or_ok_of_map_eq read with ⟨e, readV, readW⟩ | ⟨a, b, readV, readW, outlines⟩
  · rw [readV, readW]
    exact .inl ⟨e, rfl, rfl⟩
  · have types : a.checkListTypes = b.checkListTypes := by
      rw [← a.checkListTypes_outline, outlines, b.checkListTypes_outline]
    have strict (filter : Filter) :
        checkStrict ⟨.parameterized, limit⟩ filter = filter.checkListTypes := rfl
    simp only [readV, readW, strict, types, bind, Except.bind]
    cases b.checkListTypes with
    | error e => exact .inl ⟨e, rfl, rfl⟩
    | ok => exact .inr ⟨_, _, rfl, rfl, Filter.render_of_outline_eq outlines⟩

/-- Another title and other years: the fragment stays, the parameters differ. -/
theorem compile_parameterized_of_years :
    let filter (title : String) (first second : Int64) : Filter :=
      .combine .and [.compare .like "title" (.scalar (.string title)),
        .compare .oneOf "year" (.list [.integer first, .integer second])]
    let v : Filter := filter "$p0\"" 1990 1991
    let w : Filter := filter "%" 2020 (-1)
    v.toJson.outline = w.toJson.outline ∧
    compile ⟨.parameterized, 2⟩ v.toJson = .ok (v.render .parameterized) ∧
    compile ⟨.parameterized, 2⟩ w.toJson = .ok (w.render .parameterized) ∧
    (v.render .parameterized).fragment = (w.render .parameterized).fragment ∧
    (v.render .parameterized).params ≠ (w.render .parameterized).params := by
  intro filter v w
  have same : v.toJson.outline = w.toJson.outline := rfl
  have acceptedV : compile ⟨.parameterized, 2⟩ v.toJson = .ok (v.render .parameterized) := rfl
  have acceptedW : compile ⟨.parameterized, 2⟩ w.toJson = .ok (w.render .parameterized) := rfl
  rcases compile_parameterized_of_outline_eq 2 same with
    ⟨_, refused, -⟩ | ⟨compiledV, compiledW, isV, isW, fragment, -⟩
  · rw [acceptedV] at refused
    cases refused
  · obtain rfl : v.render .parameterized = compiledV := Except.ok.inj (acceptedV.symm.trans isV)
    obtain rfl : w.render .parameterized = compiledW := Except.ok.inj (acceptedW.symm.trans isW)
    refine ⟨same, acceptedV, acceptedW, fragment, ?_⟩
    decide

end Compiler

end MetadataFilter
