import MetadataFilter.Filter.Error

/-!
# Places in a filter

The path of a fault starts with the steps from the root to the filter that is at fault: at each
step the keyword of a connective and the position of an operand. `Filter.At` says that such steps
lead from a filter to a part of it.
-/

namespace MetadataFilter

theorem Path.text_append_singleton (path : Path) (segment : Segment) :
    Path.text (path ++ [segment]) = path.text ++ segment.text :=
  List.foldl_append

theorem Path.text_append_key (path : Path) (key : String) :
    Path.text (path ++ [.key key]) = path.text ++ "." ++ key := by
  rw [Path.text_append_singleton, String.append_assoc]
  rfl

/-- The text of a path is the texts of its steps behind the name of the root. -/
theorem Path.text_eq_join (path : Path) :
    path.text = "filter" ++ String.join (path.map Segment.text) := by
  have general : ∀ before : String,
      path.foldl (fun text segment => text ++ segment.text) before =
        before ++ String.join (path.map Segment.text) := by
    induction path with
    | nil => simp
    | cons segment path ih =>
      intro before
      rw [List.foldl_cons, ih, List.map_cons, String.join_cons, String.append_assoc]
  exact general "filter"

@[simp] theorem Fault.under_nil (fault : Fault) : fault.under [] = fault := by
  cases fault <;> rfl

theorem Fault.under_under (fault : Fault) (path enclosing : Path) :
    (fault.under path).under enclosing = fault.under (enclosing ++ path) := by
  cases fault with
  | tooDeep => rfl
  | refused inner reason => exact congrArg (Fault.refused · reason) (List.append_assoc ..).symm

/-- The place leads from the filter to this part of it. -/
inductive Filter.At : (filter : Filter) → (place : Path) → (part : Filter) → Prop
  | root (filter : Filter) : At filter [] filter
  | operand {op : Connective} {operands : List Filter} {position : Nat} {operand part : Filter}
      {place : Path} (here : operands[position]? = some operand) (below : At operand place part) :
      At (.combine op operands) (.key op.keyword :: .index position :: place) part

end MetadataFilter
