import MetadataFilter.Filter.Document
import MetadataFilter.Proofs.Document.Spelling
import MetadataFilter.Proofs.Filter.Place
import MetadataFilter.Proofs.Fragment.Template

/-!
# Reading the canonical document of any filter

The canonical document of a filter is read as the filter if the filter passes its check, and else
it is refused for the fault that the check finds (`Filter.ofExpression_toJson`). No filter is left
out, however many faults it has and wherever they are: the two make the same tests at every node
and come to the nodes in the same order. Only the place of one kind of fault differs. A value that
does not fit its operator is refused at the comparison in a filter, and below the field in a
document (`Filter.SameFault`).

The numbers of the filter have to be finite: a document has no others.
-/

namespace MetadataFilter

/-- The literal of a comparison does not fit the operator. -/
def Reason.isOfValue : Reason → Bool
  | .listNotAccepted _ | .listRequired _ | .emptyList _ => true
  | _ => false

/-! ## Literals -/

theorem Scalar.listOfJson_toJson {xs : List Scalar} (finite : ∀ x ∈ xs, x.Finite) :
    Scalar.listOfJson (xs.map Scalar.toJson) = .ok xs :=
  (Scalar.listOfJson_eq_ok_iff _ xs).2 ⟨rfl, (Scalar.checkAll_eq_ok_iff xs).2 finite⟩

theorem Literal.ofJson_toJson (op : CompareOp) {value : Literal}
    (finite : ∀ x ∈ value.scalars, x.Finite) :
    Literal.ofJson op value.toJson = (value.check op).map fun _ => value := by
  cases value with
  | list xs =>
    have members : Scalar.listOfJson (xs.map Scalar.toJson) = .ok xs :=
      Scalar.listOfJson_toJson finite
    have checked : Scalar.checkAll xs = .ok () := (Scalar.checkAll_eq_ok_iff xs).2 finite
    simp only [Literal.toJson, Literal.ofJson, Literal.check, List.isEmpty_map, members, checked]
    split
    · split <;> rfl
    · rfl
  | scalar x =>
    have checked : x.check = .ok () := x.check_eq_ok_iff.2 (finite x List.mem_cons_self)
    have read : Scalar.ofJson x.toJson = .ok x := Scalar.ofJson_toJson x checked
    rw [Literal.toJson, Literal.ofJson_of_ne_array op x.toJson_ne_array, Literal.check, checked,
      read]
    split <;> rfl

/-- Finite numbers apart, nothing but its fit to the operator is checked of a value. -/
theorem Literal.isOfValue_of_check {op : CompareOp} {value : Literal} {reason : Reason}
    (finite : ∀ x ∈ value.scalars, x.Finite) (h : value.check op = .error reason) :
    reason.isOfValue = true := by
  cases value with
  | list xs =>
    have checked : Scalar.checkAll xs = .ok () := (Scalar.checkAll_eq_ok_iff xs).2 finite
    simp only [Literal.check, checked] at h
    split at h
    · split at h
      · cases h
        rfl
      · cases h
    · cases h
      rfl
  | scalar x =>
    have checked : x.check = .ok () := x.check_eq_ok_iff.2 (finite x List.mem_cons_self)
    simp only [Literal.check, checked] at h
    split at h
    · cases h
      rfl
    · cases h

namespace Filter

/-! ## Faults -/

/-- The fault of a canonical document beside the fault of its filter. They are the same, or the
value of a comparison is refused, which a document says one step further down. -/
inductive SameFault (filter : Filter) : (read checked : Fault) → Prop
  | tooDeep : SameFault filter .tooDeep .tooDeep
  | node (path : Path) {reason : Reason} (notOfValue : reason.isOfValue = false) :
      SameFault filter (.refused path reason) (.refused path reason)
  | value {place : Path} {op : CompareOp} {field : String} {value : Literal} {reason : Reason}
      (located : filter.At place (.compare op field value)) (fault : value.check op = .error reason)
      (ofValue : reason.isOfValue = true) :
      SameFault filter (.refused (place ++ [.key op.keyword, .key field]) reason)
        (.refused (place ++ [.key op.keyword]) reason)

/-- The faults of an operand, seen from the connective. -/
theorem SameFault.operand {op : Connective} {operands : List Filter} {position : Nat}
    {operand : Filter} {read checked : Fault} (here : operands[position]? = some operand)
    (same : operand.SameFault read checked) :
    (combine op operands).SameFault
      ((read.under [.index position]).under [.key op.keyword])
      ((checked.under [.index position]).under [.key op.keyword]) := by
  cases same with
  | tooDeep => exact .tooDeep
  | node path notOfValue => exact .node _ notOfValue
  | value located fault ofValue => exact .value (.operand here located) fault ofValue

/-! ## Filters -/

theorem ofComparison_toJson (op : CompareOp) {field : String} {value : Literal}
    (finite : ∀ x ∈ value.scalars, x.Finite) :
    (ofComparison op (.object [(field, value.toJson)]) = .ok (.compare op field value) ∧
      checkComparison op field value = .ok ()) ∨
    (ofComparison op (.object [(field, value.toJson)]) = .error (.refused [] .emptyFieldName) ∧
      checkComparison op field value = .error .emptyFieldName) ∨
    ∃ reason, value.check op = .error reason ∧
      ofComparison op (.object [(field, value.toJson)]) = .error (.refused [.key field] reason) ∧
      checkComparison op field value = .error reason := by
  simp only [ofComparison, singleMember, checkComparison]
  by_cases empty : field.isEmpty = true
  · rw [if_pos empty, if_pos empty]
    exact .inr (.inl ⟨rfl, rfl⟩)
  · rw [if_neg empty, if_neg empty]
    simp only [ofField, Literal.ofJson_toJson op finite]
    cases checked : value.check op with
    | ok => exact .inl ⟨rfl, rfl⟩
    | error reason => exact .inr (.inr ⟨reason, rfl, rfl, rfl⟩)

section Step

variable {levels : Nat}
  (expression : ∀ filter : Filter, (∀ x ∈ filter.scalars, x.Finite) →
    (ofExpression levels filter.toJson = .ok filter ∧ filter.check levels = .ok ()) ∨
    ∃ read checked, filter.SameFault read checked ∧
      ofExpression levels filter.toJson = .error read ∧ filter.check levels = .error checked)

include expression

/-- Operands are visited in the same order: the first at fault is the same. -/
theorem ofItems_toJsonAll (operands : List Filter) (position : Nat)
    (finite : ∀ x ∈ scalarsOfAll operands, x.Finite) :
    (ofItems levels position (toJsonAll operands) = .ok operands ∧
      checkOperands levels position operands = .ok ()) ∨
    ∃ (i : Nat) (operand : Filter) (read checked : Fault),
      operands[i]? = some operand ∧ operand.SameFault read checked ∧
      ofItems levels position (toJsonAll operands) =
        .error (read.under [.index (position + i)]) ∧
      checkOperands levels position operands =
        .error (checked.under [.index (position + i)]) := by
  induction operands generalizing position with
  | nil => exact .inl ⟨rfl, rfl⟩
  | cons operand rest ih =>
    have finiteFirst : ∀ x ∈ operand.scalars, x.Finite :=
      fun x hx => finite x (List.mem_append_left _ hx)
    have finiteRest : ∀ x ∈ scalarsOfAll rest, x.Finite :=
      fun x hx => finite x (List.mem_append_right _ hx)
    simp only [toJsonAll, ofItems, checkOperands]
    rcases expression operand finiteFirst with ⟨read, checked⟩ | ⟨r, c, same, read, checked⟩
    · rw [read, checked]
      rcases ih (position + 1) finiteRest with
        ⟨reads, checks⟩ | ⟨i, found, r, c, here, same, reads, checks⟩
      · exact .inl ⟨by rw [reads]; rfl, checks⟩
      · refine .inr ⟨i + 1, found, r, c, here, same, ?_, ?_⟩
        · rw [reads, Nat.add_assoc, Nat.add_comm 1]
          rfl
        · rw [Nat.add_comm i, ← Nat.add_assoc]
          exact checks
    · rw [read, checked]
      exact .inr ⟨0, operand, r, c, rfl, same, rfl, rfl⟩

theorem ofExpression_toJson_step {filter : Filter} (finite : ∀ x ∈ filter.scalars, x.Finite) :
    (ofExpression (levels + 1) filter.toJson = .ok filter ∧ filter.check (levels + 1) = .ok ()) ∨
    ∃ read checked, filter.SameFault read checked ∧
      ofExpression (levels + 1) filter.toJson = .error read ∧
      filter.check (levels + 1) = .error checked := by
  cases filter with
  | always => exact .inr ⟨_, _, .node [] rfl, rfl, rfl⟩
  | compare op field value =>
    simp only [toJson, ofExpression, check, CompareOp.keyword_isEmpty, Bool.false_eq_true, if_false,
      ExpressionKey.ofText_compare]
    rcases ofComparison_toJson op finite with
      ⟨read, checked⟩ | ⟨read, checked⟩ | ⟨reason, fault, read, checked⟩
    · rw [read, checked]
      exact .inl ⟨rfl, rfl⟩
    · rw [read, checked]
      exact .inr ⟨_, _, .node [.key op.keyword] rfl, rfl, rfl⟩
    · rw [read, checked]
      have ofValue : reason.isOfValue = true := Literal.isOfValue_of_check finite fault
      exact .inr ⟨_, _, .value (.root _) fault ofValue, rfl, rfl⟩
  | combine op operands =>
    have length : (toJsonAll operands).length = operands.length := by
      rw [toJsonAll_eq_map, List.length_map]
    simp only [toJson, ofExpression, check, Connective.keyword_isEmpty, Bool.false_eq_true,
      if_false, ExpressionKey.ofText_connective, ofOperands, length]
    split
    · exact .inr ⟨_, _, .node [.key op.keyword] rfl, rfl, rfl⟩
    · rcases ofItems_toJsonAll expression operands 0 finite with
        ⟨read, checked⟩ | ⟨i, operand, r, c, here, same, read, checked⟩
      · rw [read, checked]
        exact .inl ⟨rfl, rfl⟩
      · rw [read, checked, Nat.zero_add]
        exact .inr ⟨_, _, same.operand here, rfl, rfl⟩

end Step

/-- **The canonical document is read as the filter, or refused for the fault of the filter.** -/
theorem ofExpression_toJson (levels : Nat) (filter : Filter)
    (finite : ∀ x ∈ filter.scalars, x.Finite) :
    (ofExpression levels filter.toJson = .ok filter ∧ filter.check levels = .ok ()) ∨
    ∃ read checked, filter.SameFault read checked ∧
      ofExpression levels filter.toJson = .error read ∧ filter.check levels = .error checked := by
  induction levels generalizing filter with
  | zero => exact .inr ⟨_, _, .tooDeep, by rw [ofExpression], by rw [check]⟩
  | succ levels ih => exact ofExpression_toJson_step ih finite

end Filter

end MetadataFilter
