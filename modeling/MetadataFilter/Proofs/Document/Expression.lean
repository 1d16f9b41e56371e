import MetadataFilter.Proofs.Document.Spelling
import MetadataFilter.Proofs.Filter.Place

/-!
# Reading an expression, by its key

What `Filter.ofExpression` makes of a document is settled by the only key of the document: there is
one equation for each kind of key, and a document of any other form is refused as a whole
(`Filter.Form`). Operands are read if each of them is (`Filter.ofItems_eq_ok_iff_forall₂`), and
refused for the first one that is refused, whatever stands behind it
(`Filter.ofItems_eq_error_iff`).
-/

namespace MetadataFilter

/-- The empty key counts as a field, which then has no name. -/
theorem ExpressionKey.isEmpty_of_ne_field {key : String} (h : ExpressionKey.ofText key ≠ .field) :
    key.isEmpty = false := by
  rw [Bool.eq_false_iff]
  intro empty
  rw [String.isEmpty_iff.1 empty] at h
  exact h rfl

namespace Filter

/-! ## Expressions -/

section Key

variable {levels : Nat} {key : String}

theorem ofExpression_connective {op : Connective}
    (known : ExpressionKey.ofText key = .connective op) (value : Json) :
    ofExpression (levels + 1) (.object [(key, value)]) =
      ((ofOperands levels value).map (.combine op)).mapError (Fault.under [.key key]) := by
  have named : key.isEmpty = false := ExpressionKey.isEmpty_of_ne_field (by simp [known])
  simp only [ofExpression, named, Bool.false_eq_true, if_false, known]

theorem ofExpression_compare {op : CompareOp} (known : ExpressionKey.ofText key = .compare op)
    (value : Json) :
    ofExpression (levels + 1) (.object [(key, value)]) =
      (ofComparison op value).mapError (Fault.under [.key key]) := by
  have named : key.isEmpty = false := ExpressionKey.isEmpty_of_ne_field (by simp [known])
  simp only [ofExpression, named, Bool.false_eq_true, if_false, known]

theorem ofExpression_field (named : key.isEmpty = false)
    (known : ExpressionKey.ofText key = .field) (value : Json) :
    ofExpression (levels + 1) (.object [(key, value)]) = ofField .eq key value := by
  simp only [ofExpression, named, Bool.false_eq_true, if_false, known]

theorem ofExpression_unknown (known : ExpressionKey.ofText key = .unknown) (value : Json) :
    ofExpression (levels + 1) (.object [(key, value)]) = refuse [] (.unknownOperator key) := by
  have named : key.isEmpty = false := ExpressionKey.isEmpty_of_ne_field (by simp [known])
  simp only [ofExpression, named, Bool.false_eq_true, if_false, known]

end Key

theorem ofComparison_singleton {field : String} (named : field.isEmpty = false) (op : CompareOp)
    (value : Json) : ofComparison op (.object [(field, value)]) = ofField op field value := by
  have single := (singleMember_eq_ok_iff [(field, value)] field value).2 ⟨rfl, named⟩
  simp only [ofComparison, single]

/-- What a document can be as an expression. -/
inductive Form : Json → Prop
  /-- It is refused itself, whatever stands below its key, if it has a single one. -/
  | refused {document : Json} {reason : Reason}
      (bad : ∀ key value, document = .object [(key, value)] →
        key.isEmpty = true ∨ ExpressionKey.ofText key = .unknown)
      (all : ∀ levels, ofExpression (levels + 1) document = refuse [] reason) : Form document
  | connective {key : String} {op : Connective} (value : Json)
      (known : ExpressionKey.ofText key = .connective op) : Form (.object [(key, value)])
  | compare {key : String} {op : CompareOp} (value : Json)
      (known : ExpressionKey.ofText key = .compare op) : Form (.object [(key, value)])
  | field {key : String} (value : Json) (named : key.isEmpty = false)
      (known : ExpressionKey.ofText key = .field) : Form (.object [(key, value)])

theorem form (document : Json) : Form document := by
  match document with
  | .null | .bool _ | .number _ | .string _ | .array _ | .object [] | .object (_ :: _ :: _) =>
    exact .refused nofun fun _ => rfl
  | .object [(key, value)] =>
    cases known : ExpressionKey.ofText key with
    | connective op => exact .connective value known
    | compare op => exact .compare value known
    | field =>
      cases named : key.isEmpty with
      | true =>
        obtain rfl := String.isEmpty_iff.1 named
        exact .refused (by rintro _ _ ⟨⟩; exact .inl rfl) fun _ => rfl
      | false => exact .field value named known
    | unknown =>
      exact .refused (by rintro _ _ ⟨⟩; exact .inr known) fun _ => ofExpression_unknown known value

/-! ## Operands -/

section Operands

variable {levels position : Nat} {items : List Json}

theorem ofItems_cons_of_ok {item : Json} {operand : Filter}
    (read : ofExpression levels item = .ok operand) :
    ofItems levels position (item :: items) =
      (ofItems levels (position + 1) items).map (operand :: ·) := by
  rw [ofItems, read]
  cases ofItems levels (position + 1) items <;> rfl

theorem ofItems_cons_of_error {item : Json} {fault : Fault}
    (refused : ofExpression levels item = .error fault) :
    ofItems levels position (item :: items) = .error (fault.under [.index position]) := by
  rw [ofItems, refused]
  rfl

/-- Operands are read one by one, independent of each other. -/
theorem ofItems_eq_ok_iff_forall₂ {operands : List Filter} :
    ofItems levels position items = .ok operands ↔
      List.Forall₂ (fun item operand => ofExpression levels item = .ok operand) items operands := by
  induction items generalizing position operands with
  | nil => cases operands <;> simp [ofItems]
  | cons item items ih =>
    cases outcome : ofExpression levels item with
    | error fault =>
      rw [ofItems_cons_of_error outcome]
      constructor
      · rintro ⟨⟩
      · rintro (_ | ⟨read, -⟩)
        rw [outcome] at read
        cases read
    | ok operand =>
      rw [ofItems_cons_of_ok outcome, map_eq_ok_iff]
      constructor
      · rintro ⟨others, read, rfl⟩
        exact .cons outcome (ih.1 read)
      · rintro (_ | ⟨read, others⟩)
        rw [outcome] at read
        cases read
        exact ⟨_, ih.2 others, rfl⟩

/-- Operands are refused for the first one that is refused; those behind it are not looked at. -/
theorem ofItems_eq_error_iff {fault : Fault} :
    ofItems levels position items = .error fault ↔
      ∃ (i : Nat) (item : Json) (inner : Fault), items[i]? = some item ∧
        (∀ earlier ∈ items.take i, ∃ filter, ofExpression levels earlier = .ok filter) ∧
        ofExpression levels item = .error inner ∧ fault = inner.under [.index (position + i)] := by
  induction items generalizing position with
  | nil => simp [ofItems]
  | cons first items ih =>
    cases outcome : ofExpression levels first with
    | error inner =>
      rw [ofItems_cons_of_error outcome]
      constructor
      · rintro ⟨⟩
        exact ⟨0, first, inner, rfl, List.forall_mem_nil _, outcome, rfl⟩
      · rintro ⟨i, item, other, here, read, refused, rfl⟩
        cases i with
        | zero =>
          cases here
          rw [outcome] at refused
          cases refused
          rfl
        | succ i =>
          obtain ⟨filter, ok⟩ := read first List.mem_cons_self
          rw [outcome] at ok
          cases ok
    | ok operand =>
      have later : ofItems levels position (first :: items) = .error fault ↔
          ofItems levels (position + 1) items = .error fault := by
        rw [ofItems_cons_of_ok outcome]
        cases ofItems levels (position + 1) items <;> simp [Except.map]
      rw [later, ih]
      constructor
      · rintro ⟨i, item, inner, here, read, refused, rfl⟩
        refine ⟨i + 1, item, inner, here, ?_, refused, by rw [Nat.add_assoc, Nat.add_comm 1]⟩
        rw [List.take_succ_cons, List.forall_mem_cons]
        exact ⟨⟨operand, outcome⟩, read⟩
      · rintro ⟨i, item, inner, here, read, refused, rfl⟩
        cases i with
        | zero =>
          cases here
          rw [outcome] at refused
          cases refused
        | succ i =>
          rw [List.take_succ_cons, List.forall_mem_cons] at read
          exact ⟨i, item, inner, here, read.2, refused, by rw [Nat.add_assoc, Nat.add_comm 1]⟩

theorem ofOperands_of_few (few : items.length < 2) :
    ofOperands levels (.array items) = refuse [] (.tooFewOperands items.length) := by
  rw [ofOperands, if_pos few]

theorem ofOperands_of_many (many : 2 ≤ items.length) :
    ofOperands levels (.array items) = ofItems levels 0 items := by
  rw [ofOperands, if_neg (Nat.not_lt.2 many)]

/-- A connective is read if it has two operands or more and each of them is read. -/
theorem ofExpression_connective_eq_ok_iff {op : Connective} {filter : Filter} :
    ofExpression (levels + 1) (.object [(op.keyword, .array items)]) = .ok filter ↔
      2 ≤ items.length ∧ ∃ operands,
        List.Forall₂ (fun item operand => ofExpression levels item = .ok operand) items operands ∧
        .combine op operands = filter := by
  rw [ofExpression_connective (ExpressionKey.ofText_connective op), mapError_eq_ok_iff,
    map_eq_ok_iff]
  by_cases many : 2 ≤ items.length
  · simp only [ofOperands_of_many many, ofItems_eq_ok_iff_forall₂, many, true_and]
  · simp [ofOperands_of_few (Nat.lt_of_not_le many), many, refuse]

end Operands

/-! ## Documents -/

/-- A document other than null and the empty object is an expression. -/
theorem ofJson_eq_ofExpression {document : Json} (h : ¬Spells document .always) (limit : Nat) :
    ofJson limit document = (ofExpression limit document).mapError (Fault.atLimit limit) := by
  rw [spells_always_iff, not_or] at h
  unfold ofJson
  split
  · exact absurd rfl h.2
  · exact absurd rfl h.1
  · rfl

/-- An expression is a document that is not read as `always`. -/
theorem ofExpression_eq_ok_iff_ofJson {limit : Nat} {document : Json} {filter : Filter} :
    ofExpression limit document = .ok filter ↔
      ofJson limit document = .ok filter ∧ filter ≠ .always := by
  by_cases empty : Spells document .always
  · rw [ofJson_of_spells_always empty]
    refine iff_of_false (fun read => ?_) (fun ⟨read, other⟩ => other (Except.ok.inj read).symm)
    rcases (spells_always_iff document).1 empty with rfl | rfl <;> cases limit <;> cases read
  · rw [ofJson_eq_ofExpression empty, mapError_eq_ok_iff, iff_self_and]
    rintro read rfl
    obtain ⟨-, checked⟩ := (ofExpression_eq_ok_iff limit document .always).1 read
    exact ((check_eq_ok_iff limit .always).1 checked).1

end Filter

end MetadataFilter
