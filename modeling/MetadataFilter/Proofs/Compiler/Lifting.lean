import MetadataFilter.Proofs.Compiler.Accepted

/-!
# Scalars lifted out of a fragment

Both strict modes write a template with the same text around its scalars (`Fragment.gaps`). A
fragment is this text woven with what the mode has in place of the scalars
(`Fragment.write_eq_weave`), so the parameterized fragment is the escaped one with a placeholder
for each scalar (`Compiler.compileFilter_lifts_scalars`).
-/

namespace MetadataFilter

namespace Fragment

/-- Pieces of text with other texts between them: the first piece, the first text, and so on. -/
def weave : (pieces texts : List (List Char)) → List Char
  | piece :: pieces, text :: texts => piece ++ text ++ weave pieces texts
  | pieces, [] => pieces.flatten
  | [], texts => texts.flatten

/-- Text in front of the first piece. -/
def pushText (text : List Char) : List (List Char) → List (List Char)
  | [] => [text]
  | piece :: pieces => (text ++ piece) :: pieces

/-- What the strict modes write before, between and behind the scalars. -/
def gaps : List Piece → List (List Char)
  | [] => [[]]
  | .code text :: rest => pushText text (gaps rest)
  | .name field :: rest => pushText (literalText .escaped field) (gaps rest)
  | .value _ :: rest => [] :: gaps rest

theorem weave_pushText (text : List Char) {pieces : List (List Char)} (h : pieces ≠ [])
    (texts : List (List Char)) :
    weave (pushText text pieces) texts = text ++ weave pieces texts := by
  cases pieces with
  | nil => exact absurd rfl h
  | cons piece pieces => cases texts <;> simp [pushText, weave]

theorem length_pushText (text : List Char) {pieces : List (List Char)} (h : pieces ≠ []) :
    (pushText text pieces).length = pieces.length := by
  cases pieces with
  | nil => exact absurd rfl h
  | cons piece pieces => rfl

/-- There is one gap more than there are scalars. -/
theorem length_gaps (pieces : List Piece) : (gaps pieces).length = (values pieces).length + 1 := by
  induction pieces with
  | nil => rfl
  | cons piece rest ih =>
    have some : gaps rest ≠ [] := List.ne_nil_of_length_eq_add_one ih
    cases piece with
    | code | name => rw [gaps, length_pushText _ some, ih]; rfl
    | value x => rw [gaps, List.length_cons, ih]; rfl

theorem gaps_ne_nil (pieces : List Piece) : gaps pieces ≠ [] :=
  List.ne_nil_of_length_eq_add_one (length_gaps pieces)

theorem literalText_eq_escaped {mode : Mode} (strict : mode.isStrict = true) (text : String) :
    literalText mode text = literalText .escaped text := by
  rw [literalText, literalText, if_pos strict, if_pos (show Mode.escaped.isStrict = true from rfl)]

theorem write_eq_weave {mode : Mode} (strict : mode.isStrict = true) (number : Nat)
    (pieces : List Piece) :
    write mode number pieces =
      weave (gaps pieces) ((values pieces).mapIdx fun i x => valueText mode (number + i) x) := by
  induction pieces generalizing number with
  | nil => rfl
  | cons piece rest ih =>
    cases piece with
    | code text =>
      rw [write, gaps, weave_pushText _ (gaps_ne_nil rest), ih]
      rfl
    | name field =>
      rw [write, gaps, weave_pushText _ (gaps_ne_nil rest), ih, literalText_eq_escaped strict]
      rfl
    | value x =>
      rw [write, gaps, values_value, List.mapIdx_cons, weave, ih]
      simp only [List.nil_append, Nat.add_zero, Nat.add_assoc, Nat.add_comm 1]

end Fragment

/-- What stands for a scalar that was lifted out: its type, and the number of its parameter. -/
def Fragment.liftedText (number : Nat) (x : Scalar) : String :=
  "<" ++ (match x with
    | .string _ => "str"
    | .integer _ => "int64"
    | .float _ => "float64"
    | .bool _ => "bool") ++ ">$p" ++ toString number

theorem Fragment.valueText_parameterized (number : Nat) (x : Scalar) :
    valueText .parameterized number x = (liftedText number x).toList := by
  cases x <;> simp [valueText, placeholder, parameterType, parameterName, liftedText]

open Fragment

/-- **The parameterized fragment is the escaped one with each scalar lifted out**: the same pieces
of text stand around the scalars in the one and around their placeholders in the other, and the
parameters are the scalars, none lost, doubled or moved. -/
theorem Compiler.compileFilter_lifts_scalars {mode : Mode} {limit : Nat} {filter : Filter}
    {compiled : CompiledFilter} (strict : mode.isStrict = true)
    (accepted : compileFilter ⟨mode, limit⟩ filter = .ok compiled) :
    ∃ escaped parameterized : CompiledFilter,
      compileFilter ⟨.escaped, limit⟩ filter = .ok escaped ∧
      compileFilter ⟨.parameterized, limit⟩ filter = .ok parameterized ∧
      escaped.params = [] ∧
      SortedKeys parameterized.params ∧
      parameterized.params.length = filter.scalars.length ∧
      (∀ name x, (name, x) ∈ parameterized.params ↔
        ∃ i : Nat, filter.scalars[i]? = some x ∧ name = "p" ++ toString i) ∧
      ∃ pieces : List (List Char), pieces.length = filter.scalars.length + 1 ∧
        escaped.fragment.toList = weave pieces (filter.scalars.map (scalarText .escaped)) ∧
        parameterized.fragment.toList =
          weave pieces (filter.scalars.mapIdx fun i x => (liftedText i x).toList) := by
  have binds := filter.render_binds
  have none : (filter.render .escaped).params = [] := Filter.render_params_eq_nil (by decide) _
  refine ⟨filter.render .escaped, filter.render .parameterized,
    compileFilter_strict strict rfl accepted, compileFilter_strict strict rfl accepted,
    none, binds.sorted, binds.length_eq, binds.mem_iff,
    gaps filter.template, ?_, ?_, ?_⟩
  · rw [length_gaps, filter.values_template]
  · rw [filter.render_text, write_eq_weave rfl, filter.values_template]
    exact congrArg _ (List.ext_getElem (by simp) (by simp [valueText]))
  · rw [filter.render_text, write_eq_weave rfl, filter.values_template]
    simp only [valueText_parameterized, Nat.zero_add]

/-- One scalar of each type; a list that follows a string is numbered from one. -/
theorem Compiler.lifts_scalars_of_list_after_string :
    let filter : Filter := .combine .and
      [.compare .eq "title" (.scalar (.string "\"")),
        .compare .oneOf "year" (.list [.integer 1, .float (Binary64.ofBits 0x4000000000000000)]),
        .compare .ne "seen" (.scalar (.bool true))]
    ∃ escaped parameterized pieces,
      compileFilter ⟨.escaped, 2⟩ filter = .ok escaped ∧
      compileFilter ⟨.parameterized, 2⟩ filter = .ok parameterized ∧
      escaped.fragment.toList = weave pieces
        ["\"\\\"\"".toList, "1".toList, "2.0".toList, "true".toList] ∧
      parameterized.fragment.toList = weave pieces
        ["<str>$p0".toList, "<int64>$p1".toList, "<float64>$p2".toList, "<bool>$p3".toList] ∧
      parameterized.fragment =
        "(<str>json_get(.metadata, \"title\") = <str>$p0 and " ++
          "<str>json_get(.metadata, \"year\") in array_unpack([<int64>$p1, <float64>$p2]) and " ++
          "<str>json_get(.metadata, \"seen\") != <bool>$p3)" ∧
      parameterized.params.length = 4 ∧ ("p1", .integer 1) ∈ parameterized.params := by
  intro filter
  have accepted : compileFilter ⟨.escaped, 2⟩ filter = .ok (filter.render .escaped) :=
    compileFilter_eq_ok_iff.2 ⟨rfl, rfl, rfl⟩
  obtain ⟨escaped, parameterized, inPlace, compiled, -, -, length, mem_iff, pieces, -, literals,
    lifted⟩ := compileFilter_lifts_scalars rfl accepted
  have texts : filter.scalars.map (scalarText .escaped) =
      ["\"\\\"\"".toList, "1".toList, "2.0".toList, "true".toList] := by decide +kernel
  refine ⟨escaped, parameterized, pieces, inPlace, compiled, texts ▸ literals, lifted, ?_, length,
    (mem_iff _ _).2 ⟨1, rfl, rfl⟩⟩
  have written := (compileFilter_eq_ok_iff.1 compiled).2.2
  rw [← written]
  decide +kernel

end MetadataFilter
