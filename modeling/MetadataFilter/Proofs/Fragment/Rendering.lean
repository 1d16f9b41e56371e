import MetadataFilter.Proofs.Fragment.Parameters
import MetadataFilter.Proofs.Fragment.Template

/-!
# Writing filters

A renderer takes its text and its parameters through the whole filter. The invariant
`Renderer.Holds` ties the parameters to the scalars met so far; `Renderer.Wrote` says that between
two states exactly the given pieces were written, with the invariant kept. Every operation of the
renderer writes the pieces that the template has for it (`Renderer.node_wrote`), hence:

* `Filter.render_text`: a fragment is the template of the filter, written in the mode.
* `Filter.render_binds`: in the parameterized mode the parameters are the scalars of the filter.
-/

namespace MetadataFilter

namespace Fragment

namespace Renderer

/-- In the parameterized mode the scalars so far are the parameters; else there are none. -/
structure Holds (renderer : Renderer) (xs : List Scalar) : Prop where
  binds : renderer.mode = .parameterized → Binds renderer.params xs
  params_eq_nil : renderer.mode ≠ .parameterized → renderer.params = []

/-- What was written after the scalars `xs`, and that the invariant still holds. -/
structure Wrote (pieces : List Piece) (xs : List Scalar) (before after : Renderer) : Prop where
  mode_eq : after.mode = before.mode
  text_eq : after.text.toList = before.text.toList ++ write before.mode xs.length pieces
  holds : after.Holds (xs ++ values pieces)

theorem Wrote.trans {p q : List Piece} {xs : List Scalar} {r₁ r₂ r₃ : Renderer}
    (first : Wrote p xs r₁ r₂) (second : Wrote q (xs ++ values p) r₂ r₃) :
    Wrote (p ++ q) xs r₁ r₃ where
  mode_eq := second.mode_eq.trans first.mode_eq
  text_eq := by
    rw [second.text_eq, first.text_eq, first.mode_eq, write_append, List.length_append,
      List.append_assoc]
  holds := by
    rw [values_append, ← List.append_assoc]
    exact second.holds

/-! ## Single operations -/

section

variable {renderer : Renderer} {xs : List Scalar}

/-- Text that is no scalar leaves the parameters alone. -/
theorem Holds.put (h : renderer.Holds xs) (text : List Char) : (renderer.put text).Holds xs :=
  ⟨h.binds, h.params_eq_nil⟩

theorem put_text (renderer : Renderer) (text : List Char) :
    (renderer.put text).text.toList = renderer.text.toList ++ text := by
  simp [Renderer.put]

theorem code_wrote (h : renderer.Holds xs) (text : List Char) :
    Wrote [.code text] xs renderer (renderer.put text) where
  mode_eq := rfl
  text_eq := by rw [put_text, write, write, List.append_nil]
  holds := by simpa using h.put text

theorem name_wrote (h : renderer.Holds xs) (field : String) :
    Wrote [.name field] xs renderer (renderer.put (literalText renderer.mode field)) where
  mode_eq := rfl
  text_eq := by rw [put_text, write, write, List.append_nil]
  holds := by simpa using h.put _

theorem scalar_wrote (h : renderer.Holds xs) (x : Scalar) :
    Wrote [.value x] xs renderer (renderer.scalar x) := by
  have inPlace (ne : renderer.mode ≠ .parameterized)
      (eq : renderer.scalar x = renderer.put (valueText renderer.mode xs.length x)) :
      Wrote [.value x] xs renderer (renderer.scalar x) := by
    rw [eq]
    refine ⟨rfl, ?_, ⟨fun mode => absurd mode ne, h.params_eq_nil⟩⟩
    rw [put_text, write, write, List.append_nil]
  cases mode : renderer.mode with
  | legacy => exact inPlace (by simp [mode]) (by simp only [scalar, valueText, mode])
  | escaped => exact inPlace (by simp [mode]) (by simp only [scalar, valueText, mode])
  | parameterized =>
    have binds := h.binds mode
    have eq : renderer.scalar x = renderer.addParam x := by simp only [scalar, mode]
    rw [eq]
    -- the number of the parameter is the size of the map, which is the number of scalars so far
    refine ⟨rfl, ?_, ⟨fun _ => binds.insert x, fun ne => absurd mode ne⟩⟩
    rw [write, write, List.append_nil, mode, valueText, ← binds.length_eq]
    exact put_text renderer _

end

/-! ## Literals and filters -/

theorem scalars_wrote {renderer : Renderer} {xs : List Scalar} (h : renderer.Holds xs)
    (ys : List Scalar) : Wrote (listTemplate ys) xs renderer (renderer.scalars ys) := by
  induction ys using listTemplate.induct generalizing renderer xs with
  | case1 =>
    exact ⟨rfl, by simp [listTemplate, scalars, write], by simpa [listTemplate, scalars] using h⟩
  | case2 x => exact scalar_wrote h x
  | case3 x rest more ih =>
    have first := scalar_wrote h x
    have comma := code_wrote first.holds ", ".toList
    simp only [listTemplate, scalars]
    exact first.trans (comma.trans (ih comma.holds))

theorem literal_wrote {renderer : Renderer} {xs : List Scalar} (h : renderer.Holds xs)
    (literal : Literal) : Wrote literal.template xs renderer (renderer.literal literal) := by
  cases literal with
  | scalar x => exact scalar_wrote h x
  | list ys =>
    have opening := code_wrote h "array_unpack([".toList
    have members := scalars_wrote opening.holds ys
    exact opening.trans (members.trans (code_wrote members.holds _))

theorem accessor_wrote {renderer : Renderer} {xs : List Scalar} (h : renderer.Holds xs)
    (field : String) :
    Wrote [.code "<str>json_get(.metadata, ".toList, .name field, .code [')']] xs renderer
      (renderer.accessor field) := by
  have opening := code_wrote h "<str>json_get(.metadata, ".toList
  have name := name_wrote opening.holds field
  exact opening.trans (name.trans (code_wrote name.holds _))

mutual

/-- **A filter is written as its template**, with its scalars as the next ones. -/
theorem node_wrote {renderer : Renderer} {xs : List Scalar} (h : renderer.Holds xs) :
    (filter : Filter) → Wrote filter.template xs renderer (renderer.node filter)
  | .always =>
    ⟨rfl, by simp [Filter.template, node, write], by simpa [Filter.template, node] using h⟩
  | .compare op field value => by
    have path := accessor_wrote h field
    have operator := code_wrote path.holds (operatorText op.symbol)
    exact path.trans (operator.trans (literal_wrote operator.holds value))
  | .combine op operands => by
    have opening := code_wrote h ['(']
    have inside := operands_wrote opening.holds op operands
    exact opening.trans (inside.trans (code_wrote inside.holds _))

theorem operands_wrote {renderer : Renderer} {xs : List Scalar} (h : renderer.Holds xs)
    (op : Connective) :
    (operands : List Filter) →
      Wrote (Filter.joinTemplates op operands) xs renderer (renderer.operands op operands)
  | [] => ⟨rfl, by simp [Filter.joinTemplates, Renderer.operands, write],
      by simpa [Filter.joinTemplates, Renderer.operands] using h⟩
  | [operand] => node_wrote h operand
  | operand :: next :: rest => by
    have first := node_wrote h operand
    have operator := code_wrote first.holds (operatorText op.symbol)
    exact first.trans (operator.trans (operands_wrote operator.holds op (next :: rest)))

end

end Renderer

end Fragment

namespace Filter

open Fragment

theorem node_wrote (mode : Mode) (filter : Filter) :
    Renderer.Wrote filter.template [] { mode } (Renderer.node { mode } filter) :=
  Renderer.node_wrote ⟨fun _ => Binds.nil, fun _ => rfl⟩ filter

theorem render_text (mode : Mode) (filter : Filter) :
    (filter.render mode).fragment.toList = write mode 0 filter.template :=
  (node_wrote mode filter).text_eq

theorem render_binds (filter : Filter) :
    Binds (filter.render .parameterized).params filter.scalars := by
  have wrote := node_wrote .parameterized filter
  have binds := wrote.holds.binds wrote.mode_eq
  rwa [List.nil_append, values_template] at binds

theorem render_params_eq_nil {mode : Mode} (h : mode ≠ .parameterized) (filter : Filter) :
    (filter.render mode).params = [] := by
  have wrote := node_wrote mode filter
  exact wrote.holds.params_eq_nil (by rw [wrote.mode_eq]; exact h)

end Filter

end MetadataFilter
