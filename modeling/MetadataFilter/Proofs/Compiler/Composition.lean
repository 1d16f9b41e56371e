import Mathlib.Data.List.Forall2
import MetadataFilter.Proofs.Compiler.Accepted
import MetadataFilter.Proofs.Document.Expression
import MetadataFilter.Proofs.Filter.ListTypes
import MetadataFilter.Proofs.Fragment.Renumbering

/-!
# A connective is compiled from its operands

A connective is accepted if it has two operands or more and each of them is accepted with one level
less, as more than the empty filter. Its fragment is then put together from the fragments of the
operands, and its parameters are those of the operands (`Joins`); in the parameterized mode the
operands are numbered one behind the other first (`Compiler.compile_connective`).
-/

namespace MetadataFilter

open Fragment

/-- What stands between the fragments of the operands. -/
def Connective.separator : Connective → String
  | .and => " and "
  | .or => " or "

/-- The compiled filters are put together: the fragments between parentheses with the connective
between them, and the parameters in one map, none of which takes the place of another. -/
structure Joins (op : Connective) (parts : List CompiledFilter) (compiled : CompiledFilter) :
    Prop where
  fragment_eq : compiled.fragment =
    "(" ++ op.separator.intercalate (parts.map CompiledFilter.fragment) ++ ")"
  params_sorted : SortedKeys compiled.params
  params_perm : compiled.params.Perm (parts.flatMap CompiledFilter.params)

/-! ## Lists -/

section Lists

variable {α β : Type} {R : α → β → Prop}

theorem forall₂_and_right {p : β → Prop} {xs : List α} {ys : List β} :
    List.Forall₂ (fun x y => R x y ∧ p y) xs ys ↔ List.Forall₂ R xs ys ∧ ∀ y ∈ ys, p y := by
  induction xs generalizing ys with
  | nil => cases ys <;> simp
  | cons x xs ih => cases ys <;> simp [ih, and_assoc, and_left_comm]

theorem exists_forall₂_iff {xs : List α} :
    (∃ ys, List.Forall₂ R xs ys) ↔ ∀ x ∈ xs, ∃ y, R x y := by
  induction xs with
  | nil => simp
  | cons x xs ih => simp [← ih, List.forall₂_cons_left_iff]

end Lists

/-! ## Texts of operands -/

theorem operatorText_symbol (op : Connective) : operatorText op.symbol = op.separator.toList := by
  cases op <;> rfl

namespace Filter

theorem isEmpty_render_eq_false_iff {mode : Mode} {filter : Filter} :
    (filter.render mode).isEmpty = false ↔ filter ≠ .always := by
  rw [CompiledFilter.isEmpty, Bool.eq_false_iff, Ne, String.isEmpty_iff, ← String.toList_eq_nil_iff,
    render_text, write_eq_nil_iff]

/-- The texts of several filters, numbered one behind the other. -/
def writeAll (mode : Mode) (number : Nat) : List Filter → List (List Char)
  | [] => []
  | operand :: rest =>
    write mode number operand.template :: writeAll mode (number + operand.scalars.length) rest

theorem write_joinTemplates_eq (mode : Mode) (op : Connective) : (number : Nat) →
    (operands : List Filter) →
      write mode number (joinTemplates op operands) =
        (operatorText op.symbol).intercalate (writeAll mode number operands)
  | _, [] => rfl
  | _, [operand] => by rw [joinTemplates, writeAll, writeAll, List.intercalate_singleton]
  | number, operand :: next :: rest => by
    have others := write_joinTemplates_eq mode op (number + operand.scalars.length) (next :: rest)
    rw [joinTemplates, write_append, write, values_template, others]
    · simp only [writeAll, List.intercalate_cons_cons, List.append_assoc]
    · exact List.cons_ne_nil next rest

theorem writeAll_inPlace {mode : Mode} (h : mode ≠ .parameterized) (number : Nat)
    (operands : List Filter) :
    writeAll mode number operands =
      ((operands.map (render mode)).map CompiledFilter.fragment).map String.toList := by
  induction operands generalizing number with
  | nil => rfl
  | cons operand rest ih =>
    rw [writeAll, ih, write_number h, ← render_text]
    rfl

theorem writeAll_parameterized (number : Nat) (operands : List Filter) :
    writeAll .parameterized number operands =
      ((CompiledFilter.renumberAll number (operands.map (render .parameterized))).map
        CompiledFilter.fragment).map String.toList := by
  induction operands generalizing number with
  | nil => rfl
  | cons operand rest ih =>
    rw [writeAll, ih, ← renumber_fragment, ← operand.render_binds.length_eq]
    rfl

theorem params_renumberAll_perm (number : Nat) (operands : List Filter) :
    ((CompiledFilter.renumberAll number (operands.map (render .parameterized))).flatMap
      CompiledFilter.params).Perm (bindingsFrom number (scalarsOfAll operands)) := by
  induction operands generalizing number with
  | nil => exact .nil
  | cons operand rest ih =>
    rw [List.map_cons, CompiledFilter.renumberAll, List.flatMap_cons, scalarsOfAll,
      bindingsFrom_append, operand.render_binds.length_eq]
    exact (operand.renumber_params_perm number).append (ih _)

/-! ## Connectives -/

variable (op : Connective) (operands : List Filter)

theorem fragment_combine {mode : Mode} {parts : List CompiledFilter}
    (texts : writeAll mode 0 operands = (parts.map CompiledFilter.fragment).map String.toList) :
    ((combine op operands).render mode).fragment =
      "(" ++ op.separator.intercalate (parts.map CompiledFilter.fragment) ++ ")" := by
  rw [← String.toList_inj, render_text, template]
  simp only [List.cons_append, write, write_append, write_joinTemplates_eq, texts,
    operatorText_symbol]
  simp

theorem joins_inPlace {mode : Mode} (h : mode ≠ .parameterized) :
    Joins op (operands.map (render mode)) ((combine op operands).render mode) where
  fragment_eq := fragment_combine op operands (writeAll_inPlace h 0 operands)
  params_sorted := by
    rw [render_params_eq_nil h]
    exact .nil
  params_perm := by
    have none : (operands.map (render mode)).flatMap CompiledFilter.params = [] := by
      simp [List.flatMap_eq_nil_iff, render_params_eq_nil h]
    rw [none, render_params_eq_nil h]

theorem joins_parameterized :
    Joins op (CompiledFilter.renumberAll 0 (operands.map (render .parameterized)))
      ((combine op operands).render .parameterized) where
  fragment_eq := fragment_combine op operands (writeAll_parameterized 0 operands)
  params_sorted := (render_binds _).sorted
  params_perm := (render_binds _).perm.trans (params_renumberAll_perm 0 operands).symm

end Filter

/-! ## Compilers -/

namespace Compiler

variable {mode : Mode} {limit : Nat}

theorem checkStrict_combine_iff {compiler : Compiler} {op : Connective} {operands : List Filter} :
    compiler.checkStrict (.combine op operands) = .ok () ↔
      ∀ operand ∈ operands, compiler.checkStrict operand = .ok () := by
  unfold checkStrict
  split
  · exact Filter.checkListTypes_combine_iff
  · simp

/-- Something is written for the document: it is an expression, and its lists are not refused. -/
theorem compile_not_empty_iff {document : Json} {part : CompiledFilter} :
    compile ⟨mode, limit⟩ document = .ok part ∧ part.isEmpty = false ↔
      ∃ filter, (Filter.ofExpression limit document = .ok filter ∧
        checkStrict ⟨mode, limit⟩ filter = .ok ()) ∧ filter.render mode = part := by
  simp only [compile_eq_map_accept, map_eq_ok_iff, accept_eq_ok_iff,
    Filter.ofExpression_eq_ok_iff_ofJson]
  constructor
  · rintro ⟨⟨filter, ⟨read, types⟩, rfl⟩, written⟩
    rw [Filter.isEmpty_render_eq_false_iff] at written
    exact ⟨filter, ⟨⟨read, written⟩, types⟩, rfl⟩
  · rintro ⟨filter, ⟨⟨read, other⟩, types⟩, rfl⟩
    exact ⟨⟨filter, ⟨read, types⟩, rfl⟩, Filter.isEmpty_render_eq_false_iff.2 other⟩

theorem compile_connective_eq_ok_iff {op : Connective} {items : List Json}
    {compiled : CompiledFilter} :
    compile ⟨mode, limit + 1⟩ (.object [(op.keyword, .array items)]) = .ok compiled ↔
      2 ≤ items.length ∧ ∃ operands,
        List.Forall₂ (fun item operand => Filter.ofExpression limit item = .ok operand ∧
          checkStrict ⟨mode, limit⟩ operand = .ok ()) items operands ∧
        (Filter.combine op operands).render mode = compiled := by
  have notEmpty : ¬Spells (.object [(op.keyword, .array items)]) .always := by
    simp [spells_always_iff]
  simp only [compile_eq_map_accept, map_eq_ok_iff, accept_eq_ok_iff,
    Filter.ofJson_eq_ofExpression notEmpty, mapError_eq_ok_iff,
    Filter.ofExpression_connective_eq_ok_iff, forall₂_and_right]
  constructor
  · rintro ⟨_, ⟨⟨many, operands, read, rfl⟩, types⟩, rfl⟩
    exact ⟨many, operands, ⟨read, checkStrict_combine_iff.1 types⟩, rfl⟩
  · rintro ⟨many, operands, ⟨read, types⟩, rfl⟩
    exact ⟨_, ⟨⟨many, operands, read, rfl⟩, checkStrict_combine_iff.2 types⟩, rfl⟩

/-- **A connective is compiled from its operands.** It is accepted if it has two operands or more
and for each of them something is written with one level less; what is written for the operands is
then put together, in the parameterized mode with its parameters numbered one behind the other. -/
theorem compile_connective (mode : Mode) (limit : Nat) (op : Connective) (items : List Json) :
    ((∃ compiled,
        compile ⟨mode, limit + 1⟩ (.object [(op.keyword, .array items)]) = .ok compiled) ↔
      2 ≤ items.length ∧ ∀ item ∈ items, ∃ part,
        compile ⟨mode, limit⟩ item = .ok part ∧ part.isEmpty = false) ∧
    ∀ compiled parts,
      compile ⟨mode, limit + 1⟩ (.object [(op.keyword, .array items)]) = .ok compiled →
      List.Forall₂ (fun item part => compile ⟨mode, limit⟩ item = .ok part) items parts →
      (mode ≠ .parameterized → Joins op parts compiled) ∧
      (mode = .parameterized → Joins op (CompiledFilter.renumberAll 0 parts) compiled) := by
  constructor
  · simp only [compile_connective_eq_ok_iff, compile_not_empty_iff]
    constructor
    · rintro ⟨_, many, operands, read, -⟩
      refine ⟨many, fun item mem => ?_⟩
      obtain ⟨operand, ok⟩ := exists_forall₂_iff.1 ⟨operands, read⟩ item mem
      exact ⟨_, operand, ok, rfl⟩
    · rintro ⟨many, each⟩
      obtain ⟨operands, read⟩ := exists_forall₂_iff.2 fun item mem => by
        obtain ⟨_, operand, ok, -⟩ := each item mem
        exact ⟨operand, ok⟩
      exact ⟨_, many, operands, read, rfl⟩
  · intro compiled parts compiles each
    obtain ⟨-, operands, read, rfl⟩ := compile_connective_eq_ok_iff.1 compiles
    -- an operand is compiled in one way only, so these are the parts
    obtain rfl : parts = operands.map (Filter.render mode) := by
      have written := read.imp fun item operand ok =>
        (compile_not_empty_iff.2 ⟨operand, ok, rfl⟩).1
      have single : Relator.RightUnique fun item part => compile ⟨mode, limit⟩ item = .ok part :=
        fun _ _ _ one other => Except.ok.inj (one.symm.trans other)
      exact single.forall₂ each (List.forall₂_map_right_iff.2 written)
    constructor
    · intro inPlace
      exact Filter.joins_inPlace op operands inPlace
    · rintro rfl
      exact Filter.joins_parameterized op operands

/-- The second operand alone has the parameter `p0`; behind the first, which has two, it is `p2`.
The field that is called `$p0` keeps its name. In the legacy mode `$or` joins the fragments as they
are. -/
theorem compile_connective_of_two_and_one :
    let list : Json := .object [("$in", .object [("a", .array [.string "x", .string "y"])])]
    let named : Json := .object [("$eq", .object [("$p0", .bool true)])]
    compile ⟨.parameterized, 1⟩ named =
      .ok ⟨"<str>json_get(.metadata, \"$p0\") = <bool>$p0", [("p0", .bool true)]⟩ ∧
    (∃ compiled,
      compile ⟨.parameterized, 2⟩ (.object [("$and", .array [list, named])]) = .ok compiled ∧
      compiled.fragment =
        "(<str>json_get(.metadata, \"a\") in array_unpack([<str>$p0, <str>$p1]) and " ++
          "<str>json_get(.metadata, \"$p0\") = <bool>$p2)" ∧
      compiled.params.Perm [("p0", .string "x"), ("p1", .string "y"), ("p2", .bool true)]) ∧
    ∃ compiled,
      compile ⟨.legacy, 2⟩ (.object [("$or", .array [named, list])]) = .ok compiled ∧
      compiled.fragment =
        "(<str>json_get(.metadata, \"$p0\") = true or " ++
          "<str>json_get(.metadata, \"a\") in array_unpack([\"x\", \"y\"]))" ∧
      compiled.params = [] := by
  intro list named
  -- two operands for which something is written are put together
  have joined {mode : Mode} (op : Connective) {first second : Json} {one two : CompiledFilter}
      (compiles : compile ⟨mode, 1⟩ first = .ok one ∧ one.isEmpty = false)
      (compiles' : compile ⟨mode, 1⟩ second = .ok two ∧ two.isEmpty = false) :
      ∃ compiled, compile ⟨mode, 2⟩ (.object [(op.keyword, .array [first, second])]) =
          .ok compiled ∧
        (mode ≠ .parameterized → Joins op [one, two] compiled) ∧
        (mode = .parameterized → Joins op (CompiledFilter.renumberAll 0 [one, two]) compiled) := by
    obtain ⟨accepted, joins⟩ := compile_connective mode 1 op [first, second]
    have each : ∀ item ∈ [first, second], ∃ part,
        compile ⟨mode, 1⟩ item = .ok part ∧ part.isEmpty = false := by
      rw [List.forall_mem_cons, List.forall_mem_singleton]
      exact ⟨⟨one, compiles⟩, ⟨two, compiles'⟩⟩
    obtain ⟨compiled, ok⟩ := accepted.2 ⟨Nat.le_refl 2, each⟩
    exact ⟨compiled, ok, joins compiled [one, two] ok (.cons compiles.1 (.cons compiles'.1 .nil))⟩
  refine ⟨rfl, ?_, ?_⟩
  · let listPart : CompiledFilter :=
      ⟨"<str>json_get(.metadata, \"a\") in array_unpack([<str>$p0, <str>$p1])",
        [("p0", .string "x"), ("p1", .string "y")]⟩
    let namedPart : CompiledFilter :=
      ⟨"<str>json_get(.metadata, \"$p0\") = <bool>$p0", [("p0", .bool true)]⟩
    have listCompiles : compile ⟨.parameterized, 1⟩ list = .ok listPart := rfl
    have namedCompiles : compile ⟨.parameterized, 1⟩ named = .ok namedPart := rfl
    obtain ⟨compiled, compiles, -, joins⟩ :=
      joined .and ⟨listCompiles, rfl⟩ ⟨namedCompiles, rfl⟩
    have params :
        (CompiledFilter.renumberAll 0 [listPart, namedPart]).flatMap CompiledFilter.params =
          [("p0", .string "x"), ("p1", .string "y"), ("p2", .bool true)] := by decide +kernel
    refine ⟨compiled, compiles, ?_, params ▸ (joins rfl).params_perm⟩
    rw [(joins rfl).fragment_eq]
    decide +kernel
  · let listPart : CompiledFilter :=
      ⟨"<str>json_get(.metadata, \"a\") in array_unpack([\"x\", \"y\"])", []⟩
    let namedPart : CompiledFilter := ⟨"<str>json_get(.metadata, \"$p0\") = true", []⟩
    have listCompiles : compile ⟨.legacy, 1⟩ list = .ok listPart := rfl
    have namedCompiles : compile ⟨.legacy, 1⟩ named = .ok namedPart := rfl
    obtain ⟨compiled, compiles, joins, -⟩ :=
      joined .or ⟨namedCompiles, rfl⟩ ⟨listCompiles, rfl⟩
    refine ⟨compiled, compiles, ?_, List.perm_nil.1 (joins nofun).params_perm⟩
    rw [(joins nofun).fragment_eq]
    decide +kernel

end Compiler

end MetadataFilter
