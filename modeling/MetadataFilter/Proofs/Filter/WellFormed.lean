import MetadataFilter.Filter.Validity
import MetadataFilter.Proofs.Outcome

/-!
# What a checked filter looks like

`Filter.check` reports the first fault; `Filter.WellFormed` says what there is to be without
fault, apart from the nesting: no `always` below the root, two or more operands, named fields,
literals that fit their operators, and finite numbers.

`Filter.check_eq_ok_iff`: a filter passes the check with `levels` levels exactly when it is well
formed and no deeper than that.
-/

namespace MetadataFilter

/-- A number of the scalar is finite. -/
def Scalar.Finite : Scalar → Prop
  | .float x => x.isFinite = true
  | _ => True

/-- A list that is not empty for the operators on sets, a single value for all others. -/
def Literal.Fits (op : CompareOp) : Literal → Prop
  | .scalar x => op.isSet = false ∧ x.Finite
  | .list xs => op.isSet = true ∧ xs ≠ [] ∧ ∀ x ∈ xs, x.Finite

namespace Filter

mutual

/-- A filter that may be an operand. -/
def WellFormed : Filter → Prop
  | .always => False
  | .compare op field value => field.isEmpty = false ∧ value.Fits op
  | .combine _ operands => 2 ≤ operands.length ∧ AllWellFormed operands

/-- Every one of several filters is well formed. -/
def AllWellFormed : List Filter → Prop
  | [] => True
  | operand :: rest => operand.WellFormed ∧ AllWellFormed rest

end

end Filter

/-! ## Literals -/

theorem Scalar.check_eq_ok_iff (x : Scalar) : x.check = .ok () ↔ x.Finite := by
  cases x with
  | float x => by_cases h : x.isFinite = true <;> simp [Scalar.check, Scalar.Finite, h]
  | _ => simp [Scalar.check, Scalar.Finite]

theorem Scalar.checkAll_eq_ok_iff (xs : List Scalar) :
    Scalar.checkAll xs = .ok () ↔ ∀ x ∈ xs, x.Finite := by
  induction xs with
  | nil => simp [Scalar.checkAll]
  | cons x xs ih => simp [Scalar.checkAll, check_bind_eq_ok_iff, Scalar.check_eq_ok_iff, ih]

theorem Literal.check_eq_ok_iff (op : CompareOp) (value : Literal) :
    value.check op = .ok () ↔ value.Fits op := by
  cases value with
  | scalar x =>
    by_cases h : op.isSet <;> simp [Literal.check, Literal.Fits, h, Scalar.check_eq_ok_iff]
  | list xs =>
    by_cases h : op.isSet
    · cases xs <;> simp [Literal.check, Literal.Fits, h, Scalar.checkAll_eq_ok_iff]
    · simp [Literal.check, Literal.Fits, h]

namespace Filter

theorem checkComparison_eq_ok_iff (op : CompareOp) (field : String) (value : Literal) :
    checkComparison op field value = .ok () ↔ field.isEmpty = false ∧ value.Fits op := by
  unfold checkComparison
  by_cases h : field.isEmpty = true
  · rw [if_pos h]
    simp [h]
  · rw [if_neg h, Literal.check_eq_ok_iff]
    simp [h]

/-! ## Filters -/

theorem WellFormed.depth_pos {filter : Filter} (h : filter.WellFormed) : 1 ≤ filter.depth := by
  cases filter with
  | always => exact h.elim
  | compare => exact Nat.le_refl 1
  | combine => exact Nat.le_add_right 1 _

theorem checkOperands_eq_ok_iff {levels : Nat}
    (each : ∀ filter : Filter,
      filter.check levels = .ok () ↔ filter.WellFormed ∧ filter.depth ≤ levels)
    (operands : List Filter) (position : Nat) :
    checkOperands levels position operands = .ok () ↔
      AllWellFormed operands ∧ depthOfAll operands ≤ levels := by
  induction operands generalizing position with
  | nil => simp [checkOperands, AllWellFormed, depthOfAll]
  | cons operand rest ih =>
    simp only [checkOperands, check_bind_eq_ok_iff, mapError_eq_ok_iff, each, ih, AllWellFormed,
      depthOfAll, Nat.max_le]
    exact and_and_and_comm

/-- **A filter passes the check exactly when it is well formed and not too deep.** -/
theorem check_eq_ok_iff (levels : Nat) (filter : Filter) :
    filter.check levels = .ok () ↔ filter.WellFormed ∧ filter.depth ≤ levels := by
  induction levels generalizing filter with
  | zero =>
    simp only [check, reduceCtorEq, false_iff, not_and, Nat.le_zero]
    intro h depth
    have := h.depth_pos
    omega
  | succ levels ih =>
    cases filter with
    | always => simp [check, WellFormed]
    | compare op field value =>
      simp [check, WellFormed, depth, mapError_eq_ok_iff, checkComparison_eq_ok_iff]
    | combine op operands =>
      simp only [check, WellFormed, depth]
      split
      · simp only [reduceCtorEq, false_iff]
        omega
      · rename_i many
        rw [mapError_eq_ok_iff, checkOperands_eq_ok_iff ih, Nat.add_comm 1,
          Nat.add_le_add_iff_right, and_assoc, and_iff_right (Nat.not_lt.1 many)]

theorem validate_eq_check {filter : Filter} (h : filter ≠ .always) (limit : Nat) :
    filter.validate limit = (filter.check limit).mapError (Fault.atLimit limit) := by
  cases filter with
  | always => exact absurd rfl h
  | compare op field value => rfl
  | combine op operands => rfl

theorem validate_of_ne_always {filter : Filter} (h : filter ≠ .always) (limit : Nat) :
    filter.validate limit = .ok () ↔ filter.check limit = .ok () := by
  rw [validate_eq_check h, mapError_eq_ok_iff]

/-- A valid filter is `always` or well formed. -/
theorem always_or_wellFormed {limit : Nat} {filter : Filter} (h : filter.validate limit = .ok ()) :
    filter = .always ∨ filter.WellFormed := by
  by_cases always : filter = .always
  · exact .inl always
  · rw [validate_of_ne_always always, check_eq_ok_iff] at h
    exact .inr h.1

end Filter

end MetadataFilter
