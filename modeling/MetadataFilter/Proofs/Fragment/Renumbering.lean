import MetadataFilter.Proofs.Fragment.ParameterNames

/-!
# Raising the numbers of parameters

`renumber` goes through the text of a fragment and raises the number of every parameter that stands
behind a dollar sign outside the literals; a literal is copied as it is, dollar signs included. The
text of a filter becomes the text that has a higher first number (`Filter.renumber_fragment`), and
the parameters become those that go with it (`Filter.renumber_params_perm`).
-/

namespace MetadataFilter

namespace Fragment

open Text (Stops takeWhile_append_stops dropWhile_append_stops)

/-! ## Names -/

/-- The number of the parameter with this name, if it is the name of a parameter. -/
def parameterNumber? (name : String) : Option Nat :=
  let number := Nat.ofDigitChars 10 name.toList.tail 0
  if parameterName number = name then some number else none

/-- The name of a parameter, its number raised by the offset. Other names stay as they are. -/
def raiseName (offset : Nat) (name : String) : String :=
  match parameterNumber? name with
  | some number => parameterName (number + offset)
  | none => name

/-- Exactly the names that parameters are given have a number: `p07` and `q1` have none. -/
theorem parameterNumber?_eq_some_iff {name : String} {number : Nat} :
    parameterNumber? name = some number ↔ name = parameterName number := by
  constructor
  · intro found
    obtain ⟨same, read⟩ := Option.ite_none_right_eq_some.1 found
    cases read
    exact same.symm
  · rintro rfl
    have digits : Nat.ofDigitChars 10 (parameterName number).toList.tail 0 = number := by
      rw [parameterName_toList, List.tail_cons, Nat.ofDigitChars_ten_toDigits]
    simp only [parameterNumber?, digits, if_true]

theorem raiseName_parameterName (offset number : Nat) :
    raiseName offset (parameterName number) = parameterName (number + offset) := by
  have known := parameterNumber?_eq_some_iff.2 (Eq.refl (parameterName number))
  simp only [raiseName, known]

theorem raiseName_bindingsFrom (offset number : Nat) (xs : List Scalar) :
    (bindingsFrom number xs).map (fun entry => (raiseName offset entry.1, entry.2)) =
      bindingsFrom (number + offset) xs := by
  induction xs generalizing number with
  | nil => rfl
  | cons x xs ih =>
    rw [bindingsFrom, List.map_cons, ih, raiseName_parameterName, Nat.add_right_comm]
    rfl

/-! ## Texts -/

/-- Where the scanner is behind a character. -/
def Place.next (place : Place) (c : Char) : Place := (Scan.step { place } c).place

/-- The text with the numbers of its parameters raised, from a place in or outside a literal on. -/
def renumber (offset : Nat) (place : Place) : List Char → List Char
  | [] => []
  | c :: rest =>
    match place, c with
    | .outside, '$' =>
      '$' :: (raiseName offset (String.ofList (rest.takeWhile isNameChar))).toList ++
        renumber offset .outside (rest.dropWhile isNameChar)
    | place, c => c :: renumber offset (place.next c) rest
termination_by text => text.length
decreasing_by
  · exact Nat.lt_succ_of_le (List.dropWhile_suffix isNameChar).length_le
  · exact Nat.lt_succ_self _

variable {offset : Nat}

theorem renumber_cons {place : Place} {c : Char} (h : place = .outside → c ≠ '$')
    (rest : List Char) :
    renumber offset place (c :: rest) = c :: renumber offset (place.next c) rest := by
  rw [renumber]
  exact h

theorem Scan.step_place (s : Scan) (c : Char) : (s.step c).place = s.place.next c := by
  obtain ⟨place, code, literals⟩ := s
  unfold Place.next Scan.step
  cases place with
  | outside | escaping => rfl
  | inside => dsimp only; split_ifs <;> rfl

theorem Scan.code_subset_step (s : Scan) (c : Char) : s.code ⊆ (s.step c).code := by
  unfold Scan.step
  cases s.place with
  | outside => exact List.subset_append_left _ _
  | inside => dsimp only; split_ifs <;> simp
  | escaping => exact List.Subset.refl _

theorem Scan.code_subset_run (s : Scan) (text : List Char) : s.code ⊆ (s.run text).code := by
  induction text generalizing s with
  | nil => exact List.Subset.refl _
  | cons c text ih => exact List.Subset.trans (s.code_subset_step c) (ih (s.step c))

/-- Where the scanner finds no dollar sign outside the literals, nothing changes. -/
theorem renumber_run (offset : Nat) (text rest : List Char) (s : Scan)
    (noDollar : '$' ∉ (s.run text).code) :
    renumber offset s.place (text ++ rest) =
      text ++ renumber offset (s.run text).place rest := by
  induction text generalizing s with
  | nil => rfl
  | cons c text ih =>
    -- a dollar sign outside a literal would be code, and code stays
    have other : s.place = .outside → c ≠ '$' := by
      rintro outside rfl
      refine noDollar ((s.step '$').code_subset_run text ?_)
      simp [Scan.step, outside]
    rw [List.cons_append, renumber_cons other, ← Scan.step_place, ih (s.step c) noDollar]
    rfl

theorem renumber_scans {text code : List Char} {literals : List (List Char)}
    (h : Scans text code literals) (noDollar : '$' ∉ code) (rest : List Char) :
    renumber offset .outside (text ++ rest) = text ++ renumber offset .outside rest := by
  have run : Scan.run {} text = ⟨.outside, code, literals⟩ := h.scan_eq
  have copied := renumber_run offset text rest {} (run ▸ noDollar)
  rwa [run] at copied

theorem renumber_placeholder (number : Nat) (x : Scalar) {rest : List Char}
    (ends : Stops isNameChar rest) :
    renumber offset .outside (placeholder number x ++ rest) =
      placeholder (number + offset) x ++ renumber offset .outside rest := by
  obtain ⟨type, noQuote, noDollar, parts⟩ := placeholder_append x
  have name : ∀ c ∈ (parameterName number).toList, isNameChar c = true :=
    fun c mem => isNameChar_of_mem_parameterName mem
  rw [parts, parts, renumber_scans (scans_code noQuote) noDollar, renumber,
    takeWhile_append_stops name ends, dropWhile_append_stops name ends, String.ofList_toList,
    raiseName_parameterName]
  rfl

/-- The text of separated pieces is numbered from another number on. -/
theorem renumber_write (offset : Nat) {pieces : List Piece} (separated : Separated pieces)
    (tame : ∀ text, .code text ∈ pieces → '"' ∉ text ∧ '$' ∉ text) (number : Nat)
    {rest : List Char} (ends : Stops isNameChar rest) :
    renumber offset .outside (write .parameterized number pieces ++ rest) =
      write .parameterized (number + offset) pieces ++ renumber offset .outside rest := by
  induction pieces generalizing number with
  | nil => rfl
  | cons piece pieces ih =>
    have others := fun text mem => tame text (List.mem_cons_of_mem piece mem)
    cases piece with
    | code text =>
      obtain ⟨noQuote, noDollar⟩ := tame text List.mem_cons_self
      rw [write, write, List.append_assoc, List.append_assoc,
        renumber_scans (scans_code noQuote) noDollar, ih separated others]
    | name field =>
      have strict : Mode.parameterized.isStrict = true := rfl
      rw [write, write, List.append_assoc, List.append_assoc,
        renumber_scans (scans_literalText strict field) (by decide), ih separated others]
    | value x =>
      obtain ⟨next, separated⟩ := separated
      rw [write, write, List.append_assoc, List.append_assoc, valueText, valueText,
        renumber_placeholder number x (next _ _ ends), ih separated others, Nat.add_right_comm]

end Fragment

open Fragment

/-! ## Compiled filters -/

namespace CompiledFilter

/-- The compiled filter with the numbers of all parameters raised, in the fragment and in the
map. -/
def renumber (offset : Nat) (compiled : CompiledFilter) : CompiledFilter where
  fragment := String.ofList (Fragment.renumber offset .outside compiled.fragment.toList)
  params := compiled.params.map fun entry => (raiseName offset entry.1, entry.2)

/-- The compiled filters with each numbered behind those before it. -/
def renumberAll (offset : Nat) : List CompiledFilter → List CompiledFilter
  | [] => []
  | part :: rest => part.renumber offset :: renumberAll (offset + part.params.length) rest

end CompiledFilter

namespace Filter

/-- **With its numbers raised, a fragment is the one that is written behind other parameters.** -/
theorem renumber_fragment (offset : Nat) (filter : Filter) :
    ((filter.render .parameterized).renumber offset).fragment.toList =
      write .parameterized offset filter.template := by
  have written := renumber_write offset filter.separated_template (fun _ mem => code_tame mem) 0
    (Text.stops_nil _)
  rw [List.append_nil, Nat.zero_add, Fragment.renumber, List.append_nil] at written
  rw [CompiledFilter.renumber, String.toList_ofList, filter.render_text, written]

theorem renumber_params_perm (offset : Nat) (filter : Filter) :
    ((filter.render .parameterized).renumber offset).params.Perm
      (bindingsFrom offset filter.scalars) := by
  have raised := filter.render_binds.perm.map fun entry => (raiseName offset entry.1, entry.2)
  rwa [raiseName_bindingsFrom, Nat.zero_add] at raised

end Filter

end MetadataFilter
