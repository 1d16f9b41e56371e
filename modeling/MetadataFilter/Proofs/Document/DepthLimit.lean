import MetadataFilter.Proofs.Document.Expression

/-!
# The limit on the nesting is a clean cut

Reading and checking with a smaller limit give what a larger limit gives, or the fault that the
nesting is too deep (`CutShort`): no other fault comes up and none is missed, also where a part that
is too deep stands beside parts with other faults. Of what some limit accepts, every limit accepts
exactly what is no deeper than the limit; see `Filter.depth_limit_cuts`.

Levels are counted from the root down, in the order of the document, while `Filter.depth` counts
from the leaves up. The induction over two runs never speaks of the depth; it comes in at the end,
for filters that were accepted (`Filter.check_eq_ok_iff`).
-/

namespace MetadataFilter

/-- The first outcome is the second one, or it was cut short by the limit. -/
def CutShort {α : Type} (x y : Except Fault α) : Prop := x = y ∨ x = .error .tooDeep

namespace CutShort

variable {α β : Type} {x y : Except Fault α}

theorem refl (x : Except Fault α) : CutShort x x := .inl rfl

theorem map (h : CutShort x y) (f : α → β) : CutShort (x.map f) (y.map f) := by
  rcases h with rfl | rfl
  · exact refl _
  · exact .inr rfl

/-- What is too deep is too deep from any place. -/
theorem under (h : CutShort x y) (path : Path) :
    CutShort (x.mapError (Fault.under path)) (y.mapError (Fault.under path)) := by
  rcases h with rfl | rfl
  · exact refl _
  · exact .inr rfl

theorem bind (h : CutShort x y) {f g : α → Except Fault β} (next : ∀ a, CutShort (f a) (g a)) :
    CutShort (x >>= f) (y >>= g) := by
  rcases h with rfl | rfl
  · cases x with
    | error fault => exact refl _
    | ok a => exact next a
  · exact .inr rfl

/-- With the limits, the fault of the cut run is that its own limit was exceeded. -/
theorem atLimit (h : CutShort x y) (limit larger : Nat) :
    x.mapError (Fault.atLimit limit) = y.mapError (Fault.atLimit larger) ∨
      x.mapError (Fault.atLimit limit) = .error (.depthExceeded limit) := by
  rcases h with rfl | rfl
  · match x with
    | .ok a => exact .inl rfl
    | .error .tooDeep => exact .inr rfl
    | .error (.refused path reason) => exact .inl rfl
  · exact .inr rfl

end CutShort

namespace Filter

/-! ## Reading -/

section Read

variable {levels more : Nat}
  (expression : ∀ document, CutShort (ofExpression levels document) (ofExpression more document))

include expression

theorem ofItems_cutShort (items : List Json) (position : Nat) :
    CutShort (ofItems levels position items) (ofItems more position items) := by
  induction items generalizing position with
  | nil =>
    rw [ofItems, ofItems]
    exact .refl _
  | cons item rest ih =>
    rw [ofItems, ofItems]
    apply ((expression item).under _).bind
    intro operand
    apply (ih (position + 1)).bind
    intro operands
    exact .refl _

theorem ofOperands_cutShort (value : Json) :
    CutShort (ofOperands levels value) (ofOperands more value) := by
  cases value with
  | array items =>
    simp only [ofOperands]
    split
    · exact .refl _
    · exact ofItems_cutShort expression items 0
  | _ => exact .refl _

theorem ofExpression_cutShort_step (document : Json) :
    CutShort (ofExpression (levels + 1) document) (ofExpression (more + 1) document) := by
  cases form document with
  | refused _ all =>
    rw [all, all]
    exact .refl _
  | connective value known =>
    rw [ofExpression_connective known, ofExpression_connective known]
    exact ((ofOperands_cutShort expression value).map _).under _
  | compare value known =>
    rw [ofExpression_compare known, ofExpression_compare known]
    exact .refl _
  | field value named known =>
    rw [ofExpression_field named known, ofExpression_field named known]
    exact .refl _

end Read

theorem ofExpression_cutShort {levels more : Nat} (le : levels ≤ more) (document : Json) :
    CutShort (ofExpression levels document) (ofExpression more document) := by
  induction levels generalizing more document with
  | zero =>
    rw [ofExpression]
    exact .inr rfl
  | succ levels ih =>
    obtain ⟨more, rfl⟩ := Nat.exists_eq_add_of_le' (Nat.one_le_of_lt le)
    exact ofExpression_cutShort_step (ih (Nat.le_of_succ_le_succ le)) document

theorem ofJson_cutShort {limit larger : Nat} (le : limit ≤ larger) (document : Json) :
    ofJson limit document = ofJson larger document ∨
      ofJson limit document = .error (.depthExceeded limit) := by
  have cut := (ofExpression_cutShort le document).atLimit limit larger
  match document with
  | .null | .object [] => exact .inl rfl
  | .bool _ | .number _ | .string _ | .array _ | .object (_ :: _) => exact cut

/-- What is read with some limit is read with every limit that it is not deeper than. -/
theorem ofJson_eq_ok_iff_depth {limit : Nat} {document : Json} {filter : Filter}
    (read : ofJson limit document = .ok filter) (other : Nat) :
    ofJson other document = .ok filter ↔ filter.depth ≤ other := by
  by_cases empty : Spells document .always
  · obtain rfl : Filter.always = filter :=
      Except.ok.inj ((ofJson_of_spells_always empty limit).symm.trans read)
    exact iff_of_true (ofJson_of_spells_always empty other) (Nat.zero_le other)
  · obtain ⟨spelled, checked⟩ := (ofJson_of_not_spells_always empty limit filter).1 read
    have wellFormed := ((check_eq_ok_iff limit filter).1 checked).1
    rw [ofJson_of_not_spells_always empty, Expresses, check_eq_ok_iff]
    exact ⟨fun h => h.2.2, fun h => ⟨spelled, wellFormed, h⟩⟩

/-- Of a document that some limit accepts, the depth says what every limit makes. -/
theorem ofJson_of_ok {limit : Nat} {document : Json} {filter : Filter}
    (read : ofJson limit document = .ok filter) (other : Nat) :
    ofJson other document =
      if filter.depth ≤ other then .ok filter else .error (.depthExceeded other) := by
  have accepts := ofJson_eq_ok_iff_depth read
  split
  · next shallow => exact (accepts other).2 shallow
  · next deep =>
    have shallow : filter.depth ≤ limit := (accepts limit).1 read
    have le : other ≤ limit := by omega
    rcases ofJson_cutShort le document with same | cut
    · exact absurd ((accepts other).1 (same.trans read)) deep
    · exact cut

/-! ## Checking -/

section Check

variable {levels more : Nat}
  (each : ∀ filter : Filter, CutShort (filter.check levels) (filter.check more))

include each

theorem checkOperands_cutShort (operands : List Filter) (position : Nat) :
    CutShort (checkOperands levels position operands) (checkOperands more position operands) := by
  induction operands generalizing position with
  | nil =>
    rw [checkOperands, checkOperands]
    exact .refl _
  | cons operand rest ih =>
    rw [checkOperands, checkOperands]
    apply ((each operand).under _).bind
    intro _
    exact ih (position + 1)

theorem check_cutShort_step (filter : Filter) :
    CutShort (filter.check (levels + 1)) (filter.check (more + 1)) := by
  cases filter with
  | always | compare => exact .refl _
  | combine op operands =>
    simp only [check]
    split
    · exact .refl _
    · exact (checkOperands_cutShort each operands 0).under _

end Check

theorem check_cutShort {levels more : Nat} (le : levels ≤ more) (filter : Filter) :
    CutShort (filter.check levels) (filter.check more) := by
  induction levels generalizing more filter with
  | zero =>
    rw [check]
    exact .inr rfl
  | succ levels ih =>
    obtain ⟨more, rfl⟩ := Nat.exists_eq_add_of_le' (Nat.one_le_of_lt le)
    exact check_cutShort_step (ih (Nat.le_of_succ_le_succ le)) filter

theorem validate_cutShort {limit larger : Nat} (le : limit ≤ larger) (filter : Filter) :
    filter.validate limit = filter.validate larger ∨
      filter.validate limit = .error (.depthExceeded limit) := by
  by_cases always : filter = .always
  · subst always
    by_cases none : limit = 0
    · exact .inr (if_pos none)
    · have some : larger ≠ 0 := by omega
      exact .inl ((if_neg none).trans (if_neg some).symm)
  · rw [validate_eq_check always, validate_eq_check always]
    exact (check_cutShort le filter).atLimit limit larger

/-- What is valid with some limit is valid with every limit that it is not deeper than, if there is
any level at all. -/
theorem validate_eq_ok_iff_depth {limit : Nat} {filter : Filter}
    (valid : filter.validate limit = .ok ()) {other : Nat} (levels : 1 ≤ other) :
    filter.validate other = .ok () ↔ filter.depth ≤ other := by
  by_cases always : filter = .always
  · subst always
    exact iff_of_true (if_neg (Nat.ne_of_gt levels)) (Nat.zero_le other)
  · rw [validate_of_ne_always always, check_eq_ok_iff] at valid ⊢
    exact and_iff_right valid.1

/-- **The limit on the nesting is a clean cut**, for documents and for filters. A smaller limit
gives what a larger one gives, or it is exceeded, and once a document or a filter is accepted, its
depth alone says which limits accept it. -/
theorem depth_limit_cuts {limit larger : Nat} (le : limit ≤ larger) (document : Json)
    (filter : Filter) :
    (ofJson limit document = ofJson larger document ∨
      ofJson limit document = .error (.depthExceeded limit)) ∧
    (ofJson larger document = .ok filter → ∀ other, ofJson other document =
      if filter.depth ≤ other then .ok filter else .error (.depthExceeded other)) ∧
    (filter.validate limit = filter.validate larger ∨
      filter.validate limit = .error (.depthExceeded limit)) ∧
    (filter.validate larger = .ok () → ∀ other, 1 ≤ other →
      (filter.validate other = .ok () ↔ filter.depth ≤ other)) :=
  ⟨ofJson_cutShort le document, ofJson_of_ok, validate_cutShort le filter,
    fun valid _ levels => validate_eq_ok_iff_depth valid levels⟩

/-- A part that is too deep stands before one that is no expression: up to two levels the limit is
what is wrong, from three on it is the other fault. Without that fault three levels are enough. -/
theorem depth_limit_cuts_before_fault :
    let one (field : String) : Filter := .compare .eq field (.scalar (.integer 1))
    let deep : Filter := .combine .or [one "a", one "b"]
    let faulty : Json := .object [("$and", .array [deep.toJson, .null])]
    let filter : Filter := .combine .and [deep, one "c"]
    ofJson 2 faulty = .error (.depthExceeded 2) ∧
    ofJson 3 faulty = .error (.invalid [.key "$and", .index 1] (.expectedObject .null)) ∧
    ofJson 2 filter.toJson = .error (.depthExceeded 2) ∧
    ofJson 3 filter.toJson = .ok filter ∧
    filter.validate 2 ≠ .ok () := by
  intro one deep faulty filter
  have refused : ofJson 3 faulty =
      .error (.invalid [.key "$and", .index 1] (.expectedObject .null)) := rfl
  have read : ofJson 3 filter.toJson = .ok filter := rfl
  have valid : filter.validate 3 = .ok () := rfl
  obtain ⟨outcome, -, -, -⟩ := depth_limit_cuts (Nat.le_succ 2) faulty filter
  obtain ⟨-, accepts, -, checks⟩ := depth_limit_cuts (Nat.le_succ 2) filter.toJson filter
  refine ⟨?_, refused, accepts read 2, read, ?_⟩
  · rcases outcome with same | cut
    · rw [refused] at same
      cases same
    · exact cut
  · rw [Ne, checks valid 2 (by decide)]
    decide

end Filter

end MetadataFilter
