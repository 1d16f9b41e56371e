import MetadataFilter.Proofs.Compiler.Quoting
import MetadataFilter.Proofs.Text.Stops

/-!
# The names of the parameters in a fragment

Outside the literals of a parameterized fragment there is a dollar sign for each scalar of the
filter and no other, and behind these stand the names `p0`, `p1`, …, in this order
(`Filter.dollarNames_render`). The map of parameters has the same names, so that none is without a
value and no value without its place (`Filter.dollarNames_perm_params`).

A name ends where the parameter ends because behind each scalar of a template comes something that
continues no name (`Filter.separated_template`).
-/

namespace MetadataFilter

namespace Fragment

open Text (Stops stops_cons takeWhile_append_stops)

/-! ## Names behind dollar signs -/

/-- A character that continues a name. -/
def isNameChar (c : Char) : Bool := c.isAlphanum || c == '_'

/-- The names behind the dollar signs of code. -/
def dollarNames : List Char → List String
  | [] => []
  | c :: rest =>
    if c = '$' then String.ofList (rest.takeWhile isNameChar) :: dollarNames rest
    else dollarNames rest

/-- The names of parameters from a number on. -/
def parameterNames (number count : Nat) : List String :=
  (List.range' number count).map parameterName

theorem dollarNames_append {text : List Char} (h : '$' ∉ text) (rest : List Char) :
    dollarNames (text ++ rest) = dollarNames rest := by
  induction text with
  | nil => rfl
  | cons c text ih =>
    have other : c ≠ '$' := fun eq => h (eq ▸ List.mem_cons_self)
    rw [List.cons_append, dollarNames, if_neg other, ih fun mem => h (List.mem_cons_of_mem c mem)]

theorem isNameChar_of_mem_parameterName {number : Nat} {c : Char}
    (h : c ∈ (parameterName number).toList) : isNameChar c = true := by
  rw [parameterName_toList] at h
  rcases List.mem_cons.1 h with rfl | h
  · rfl
  · simp [isNameChar, Char.isAlphanum, isDigit_of_mem_toDigits h]

/-- A placeholder is code without quotes and dollar signs, a dollar sign, and a name. -/
theorem placeholder_append (x : Scalar) :
    ∃ type, '"' ∉ type ∧ '$' ∉ type ∧ ∀ number rest,
      placeholder number x ++ rest = type ++ '$' :: ((parameterName number).toList ++ rest) := by
  refine ⟨'<' :: (parameterType x).toList ++ ['>'], ?_, ?_, by simp [placeholder]⟩ <;>
    cases x <;> simp [parameterType]

theorem dollarNames_placeholder (number : Nat) (x : Scalar) {rest : List Char}
    (ends : Stops isNameChar rest) :
    dollarNames (placeholder number x ++ rest) = parameterName number :: dollarNames rest := by
  obtain ⟨type, -, noDollar, parts⟩ := placeholder_append x
  have name : '$' ∉ (parameterName number).toList := fun mem =>
    absurd (isNameChar_of_mem_parameterName mem) (by decide)
  rw [parts, dollarNames_append noDollar, dollarNames, if_pos rfl,
    takeWhile_append_stops (fun c mem => isNameChar_of_mem_parameterName mem) ends,
    String.ofList_toList, dollarNames_append name]

/-! ## Pieces -/

/-- The pieces continue no name. -/
def EndsNames (pieces : List Piece) : Prop :=
  ∀ number rest, Stops isNameChar rest →
    Stops isNameChar (write .parameterized number pieces ++ rest)

theorem endsNames_nil : EndsNames [] := fun _ _ ends => ends

theorem endsNames_code {c : Char} (h : isNameChar c = false) (text : List Char)
    (pieces : List Piece) : EndsNames (.code (c :: text) :: pieces) :=
  fun _ _ _ => stops_cons h _

theorem EndsNames.append {p q : List Piece} (h : EndsNames p) (h' : EndsNames q) :
    EndsNames (p ++ q) := by
  intro number rest ends
  rw [write_append, List.append_assoc]
  exact h number _ (h' _ rest ends)

/-- Behind each scalar of the pieces, nothing continues its name. -/
def Separated : List Piece → Prop
  | [] => True
  | .code _ :: rest | .name _ :: rest => Separated rest
  | .value _ :: rest => EndsNames rest ∧ Separated rest

theorem Separated.append {p q : List Piece} (h : Separated p) (h' : Separated q)
    (next : EndsNames q) : Separated (p ++ q) := by
  induction p with
  | nil => exact h'
  | cons piece p ih =>
    cases piece with
    | code | name => exact ih h
    | value x => exact ⟨h.1.append next, ih h.2⟩

theorem separated_listTemplate (xs : List Scalar) : Separated (listTemplate xs) := by
  induction xs using listTemplate.induct with
  | case1 => trivial
  | case2 x => exact ⟨endsNames_nil, trivial⟩
  | case3 x rest more ih =>
    rw [listTemplate]
    · exact ⟨endsNames_code rfl _ _, ih⟩
    · exact more

/-- Numbered from anywhere, the pieces name their scalars, up to a rest that continues no name. -/
def NamesScalars (pieces : List Piece) : Prop :=
  ∀ number rest, Stops isNameChar rest →
    dollarNames (write .parameterized number pieces ++ rest) =
      parameterNames number (values pieces).length ++ dollarNames rest

/-- A name with a dollar sign would count as well, hence all names are left out. -/
theorem Separated.namesScalars {pieces : List Piece} (h : Separated pieces)
    (code : ∀ text, .code text ∈ pieces → '$' ∉ text)
    (names : ∀ field, .name field ∈ pieces → field = "") : NamesScalars pieces := by
  induction pieces with
  | nil => exact fun _ _ _ => rfl
  | cons piece pieces ih =>
    intro number rest ends
    have code' := fun text mem => code text (List.mem_cons_of_mem piece mem)
    have names' := fun field mem => names field (List.mem_cons_of_mem piece mem)
    cases piece with
    | code text =>
      rw [write, List.append_assoc, dollarNames_append (code text List.mem_cons_self), values_code]
      exact ih h code' names' number rest ends
    | name field =>
      obtain rfl := names field List.mem_cons_self
      have quotes : literalText .parameterized "" = ['"', '"'] := rfl
      rw [write, quotes, List.append_assoc, dollarNames_append (by decide), values_name]
      exact ih h code' names' number rest ends
    | value x =>
      obtain ⟨next, h⟩ := h
      rw [write, valueText, List.append_assoc, dollarNames_placeholder number x (next _ _ ends),
        ih h code' names' (number + 1) rest ends, values_value, List.length_cons, parameterNames,
        parameterNames, List.range'_succ]
      rfl

end Fragment

open Fragment

theorem Literal.separated_template (value : Literal) : Separated value.template := by
  cases value with
  | scalar x => exact ⟨endsNames_nil, trivial⟩
  | list xs =>
    have closing : Separated [.code "])".toList] := trivial
    exact (separated_listTemplate xs).append closing (endsNames_code rfl _ _)

namespace Filter

mutual

/-- No name goes on behind a scalar in the template of a filter. -/
theorem separated_template : (filter : Filter) → Separated filter.template
  | .always => trivial
  | .compare _ _ value => value.separated_template
  | .combine op operands => by
    have closing : Separated [.code [')']] := trivial
    exact (separated_joinTemplates op operands).append closing (endsNames_code rfl _ _)

theorem separated_joinTemplates (op : Connective) : (operands : List Filter) →
    Separated (joinTemplates op operands)
  | [] => trivial
  | [operand] => separated_template operand
  | operand :: next :: rest =>
    (separated_template operand).append (separated_joinTemplates op (next :: rest))
      (endsNames_code rfl _ _)

end

/-- With the field names left out, the template of a filter names its scalars. -/
theorem namesScalars_template (filter : Filter) : NamesScalars filter.eraseText.template := by
  apply filter.eraseText.separated_template.namesScalars fun text mem => (code_tame mem).2
  intro field mem
  rw [template_eraseText] at mem
  obtain ⟨piece, -, erased⟩ := List.mem_map.1 mem
  cases piece <;> cases erased
  rfl

end Filter

/-! ## Bindings -/

namespace Fragment

theorem parameterNames_nodup (number count : Nat) : (parameterNames number count).Nodup :=
  List.Nodup.map (fun _ _ same => parameterName_injective same) (List.nodup_range' 1 Nat.one_pos)

/-- The scalars as parameters that are numbered from a number on. -/
def bindingsFrom (number : Nat) : List Scalar → List (String × Scalar)
  | [] => []
  | x :: rest => (parameterName number, x) :: bindingsFrom (number + 1) rest

theorem bindingsFrom_append (number : Nat) (xs ys : List Scalar) :
    bindingsFrom number (xs ++ ys) =
      bindingsFrom number xs ++ bindingsFrom (number + xs.length) ys := by
  induction xs generalizing number with
  | nil => rfl
  | cons x xs ih =>
    rw [List.cons_append, bindingsFrom, ih, List.length_cons, Nat.add_right_comm, Nat.add_assoc]
    rfl

theorem names_bindingsFrom (number : Nat) (xs : List Scalar) :
    (bindingsFrom number xs).map Prod.fst = parameterNames number xs.length := by
  induction xs generalizing number with
  | nil => rfl
  | cons x xs ih =>
    rw [bindingsFrom, List.map_cons, ih, parameterNames, parameterNames, List.length_cons,
      List.range'_succ]
    rfl

theorem mem_bindingsFrom_iff {number : Nat} {xs : List Scalar} {name : String} {x : Scalar} :
    (name, x) ∈ bindingsFrom number xs ↔
      ∃ i, xs[i]? = some x ∧ name = parameterName (number + i) := by
  induction xs generalizing number with
  | nil => simp [bindingsFrom]
  | cons y xs ih =>
    rw [bindingsFrom, List.mem_cons, ih]
    constructor
    · rintro (same | ⟨i, here, rfl⟩)
      · cases same
        exact ⟨0, rfl, rfl⟩
      · exact ⟨i + 1, here, by rw [Nat.add_assoc, Nat.add_comm 1]⟩
    · rintro ⟨i, here, rfl⟩
      cases i with
      | zero =>
        cases here
        exact .inl rfl
      | succ i => exact .inr ⟨i, here, by rw [Nat.add_assoc, Nat.add_comm 1]⟩

/-- A map that binds scalars has their bindings, in the order of the names. -/
theorem Binds.perm {params : List (String × Scalar)} {xs : List Scalar} (h : Binds params xs) :
    params.Perm (bindingsFrom 0 xs) := by
  have distinct : params.Nodup := h.sorted.imp fun less same => absurd (same ▸ less) (lt_irrefl _)
  have distinct' : (bindingsFrom 0 xs).Nodup := by
    apply List.Nodup.of_map Prod.fst
    rw [names_bindingsFrom]
    exact parameterNames_nodup 0 xs.length
  refine (List.perm_ext_iff_of_nodup distinct distinct').2 fun ⟨name, x⟩ => ?_
  simp only [h.mem_iff, mem_bindingsFrom_iff, Nat.zero_add]

/-- A map that binds scalars has the names of as many parameters. -/
theorem Binds.names_perm {params : List (String × Scalar)} {xs : List Scalar}
    (h : Binds params xs) : (parameterNames 0 xs.length).Perm (params.map Prod.fst) := by
  rw [← names_bindingsFrom]
  exact (h.perm.map Prod.fst).symm

end Fragment

/-! ## Fragments -/

theorem Fragment.length_values_eraseText (pieces : List Piece) :
    (values (pieces.map Piece.eraseText)).length = (values pieces).length := by
  induction pieces with
  | nil => rfl
  | cons piece rest ih =>
    cases piece with
    | code | name => exact ih
    | value x => exact congrArg (· + 1) ih

namespace Filter

/-- **Outside its literals, a parameterized fragment has the names `p0`, `p1`, … behind its dollar
signs**, one for each scalar, whatever code without dollar signs stands before it. -/
theorem dollarNames_render {filter : Filter} (plain : ∀ piece ∈ filter.template, piece.Plain)
    {keyword : List Char} (noQuote : '"' ∉ keyword) (noDollar : '$' ∉ keyword) :
    dollarNames (scan (keyword ++ (filter.render .parameterized).fragment.toList)).code =
      parameterNames 0 filter.scalars.length := by
  have strict : Mode.parameterized.isStrict = true := rfl
  have scans := ((scans_code noQuote).append (scans_render plain strict)).scan_eq
  have names := filter.namesScalars_template 0 [] (Text.stops_nil _)
  rw [List.append_nil, dollarNames, List.append_nil, template_eraseText, length_values_eraseText,
    values_template] at names
  rw [scans, dollarNames_append noDollar, template_eraseText, names]

/-- **The names in a parameterized fragment are the names of its parameters.** -/
theorem dollarNames_perm_params {filter : Filter} (plain : ∀ piece ∈ filter.template, piece.Plain)
    {keyword : List Char} (noQuote : '"' ∉ keyword) (noDollar : '$' ∉ keyword) :
    (dollarNames (scan (keyword ++ (filter.render .parameterized).fragment.toList)).code).Perm
      ((filter.render .parameterized).params.map Prod.fst) := by
  rw [dollarNames_render plain noQuote noDollar]
  exact filter.render_binds.names_perm

end Filter

end MetadataFilter
