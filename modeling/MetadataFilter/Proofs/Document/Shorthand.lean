import MetadataFilter.Proofs.Document.Expression

/-!
# Equalities without their keyword

`Json.expand` writes `$eq` at every equality of a document that has no keyword, and leaves all else
as it is, whatever faults it has. The expanded document is read as the same filter, or refused for
the same reason (`Filter.ofExpression_expand`). The place of the fault is the same too, but for a
fault in the value of an equality that was expanded: its path has the keyword before the field
(`Json.ExpandedFault`).
-/

namespace MetadataFilter

/-- A key that names a field: it is not empty and begins with no dollar sign. -/
def namesField (key : String) : Bool := !key.isEmpty && key.toList.head? ≠ some '$'

namespace Json

mutual

/-- The document with `$eq` at every equality that is written without it. Such equalities stand at
the root and among operands; all else stays as it is, also where it is malformed. -/
def expand : Json → Json
  | .object [(key, value)] =>
    if namesField key then .object [(CompareOp.eq.keyword, .object [(key, value)])]
    else if (Connective.ofKeyword? key).isSome then .object [(key, value.expandOperands)]
    else .object [(key, value)]
  | document => document

def expandOperands : Json → Json
  | .array items => .array (expandItems items)
  | value => value

def expandItems : List Json → List Json
  | [] => []
  | item :: rest => item.expand :: expandItems rest

end

@[simp] theorem length_expandItems (items : List Json) :
    (expandItems items).length = items.length := by
  induction items with
  | nil => rfl
  | cons item rest ih => rw [expandItems, List.length_cons, List.length_cons, ih]

/-- The place leads from the document to an expression in it. -/
inductive At : (document : Json) → (place : Path) → (part : Json) → Prop
  | root (document : Json) : At document [] document
  | operand {key : String} {op : Connective} {items : List Json} {position : Nat} {item part : Json}
      {place : Path} (connective : ExpressionKey.ofText key = .connective op)
      (here : items[position]? = some item) (below : At item place part) :
      At (.object [(key, .array items)]) (.key key :: .index position :: place) part

/-- At the place stands an equality without its keyword. -/
def ShortAt (document : Json) (place : Path) (field : String) (value : Json) : Prop :=
  document.At place (.object [(field, value)]) ∧ namesField field = true

/-- The path leads to no value of an equality without its keyword. -/
def NoShortValue (document : Json) (path : Path) : Prop :=
  ∀ place field value, document.ShortAt place field value → path ≠ place ++ [.key field]

/-- The fault of a document beside the fault of the expanded document. -/
inductive ExpandedFault (document : Json) : (fault expanded : Fault) → Prop
  | tooDeep : ExpandedFault document .tooDeep .tooDeep
  | value {place : Path} {field : String} {value : Json} {reason : Reason}
      (short : document.ShortAt place field value)
      (unfit : Literal.ofJson .eq value = .error reason) :
      ExpandedFault document (.refused (place ++ [.key field]) reason)
        (.refused (place ++ [.key CompareOp.eq.keyword, .key field]) reason)
  | elsewhere {path : Path} (reason : Reason) (other : document.NoShortValue path) :
      ExpandedFault document (.refused path reason) (.refused path reason)

end Json

/-! ## Keys -/

theorem namesField_iff (key : String) :
    namesField key = true ↔ key.isEmpty = false ∧ ExpressionKey.ofText key = .field := by
  rw [ExpressionKey.ofText_eq_field_iff]
  simp [namesField]

theorem namesField_of_ne_field {key : String} (h : ExpressionKey.ofText key ≠ .field) :
    namesField key = false := by
  rw [Bool.eq_false_iff, Ne, namesField_iff]
  exact fun named => h named.2

theorem Connective.ofKeyword?_isSome_iff (key : String) :
    (Connective.ofKeyword? key).isSome = true ↔
      ∃ op, ExpressionKey.ofText key = .connective op := by
  constructor
  · intro some
    obtain ⟨op, known⟩ := Option.isSome_iff_exists.1 some
    rw [Connective.eq_keyword_of_ofKeyword? known]
    exact ⟨op, ExpressionKey.ofText_connective op⟩
  · rintro ⟨op, known⟩
    unfold ExpressionKey.ofText at known
    split at known
    · next found => rw [found]; rfl
    · split at known
      · cases known
      · split at known <;> cases known

namespace Json

theorem expand_field {key : String} (named : namesField key = true) (value : Json) :
    expand (.object [(key, value)]) =
      .object [(CompareOp.eq.keyword, .object [(key, value)])] := by
  rw [expand, if_pos named]

theorem expand_connective {key : String} {op : Connective}
    (known : ExpressionKey.ofText key = .connective op) (value : Json) :
    expand (.object [(key, value)]) = .object [(key, value.expandOperands)] := by
  have other : ¬namesField key = true := by simp [namesField_of_ne_field, known]
  rw [expand, if_neg other, if_pos ((Connective.ofKeyword?_isSome_iff key).2 ⟨op, known⟩)]

/-- The document is no equality without its keyword, and it has no operands. -/
def Inert (document : Json) : Prop :=
  ∀ key value, document = .object [(key, value)] →
    namesField key = false ∧ ∀ op, ExpressionKey.ofText key ≠ .connective op

theorem Inert.expand_eq {document : Json} (h : document.Inert) : document.expand = document := by
  match document with
  | .null | .bool _ | .number _ | .string _ | .array _ | .object [] | .object (_ :: _ :: _) => rfl
  | .object [(key, value)] =>
    obtain ⟨other, notConnective⟩ := h key value rfl
    have none : ¬(Connective.ofKeyword? key).isSome = true := by
      rw [Connective.ofKeyword?_isSome_iff]
      exact fun ⟨op, known⟩ => notConnective op known
    rw [expand, if_neg (by simp [other]), if_neg none]

theorem Inert.noShortValue {document : Json} (h : document.Inert) (path : Path) :
    document.NoShortValue path := by
  rintro place field value ⟨located, named⟩ -
  cases located with
  | root => rw [(h field value rfl).1] at named; cases named
  | operand connective => exact (h _ _ rfl).2 _ connective

/-! ## Faults -/

theorem Inert.expandedFault {document : Json} (h : document.Inert) (fault : Fault) :
    document.ExpandedFault fault fault := by
  cases fault with
  | tooDeep => exact .tooDeep
  | refused path reason => exact .elsewhere reason (h.noShortValue path)

/-- What a connective is refused for itself, is found at its key. -/
theorem expandedFault_connective {key : String} {op : Connective}
    (known : ExpressionKey.ofText key = .connective op) (value : Json) (reason : Reason) :
    ExpandedFault (.object [(key, value)]) (.refused [.key key] reason)
      (.refused [.key key] reason) := by
  apply ExpandedFault.elsewhere
  rintro place field inner ⟨located, named⟩ same
  cases located with
  | root =>
    rw [namesField_of_ne_field (by simp [known])] at named
    cases named
  | operand => simp at same

/-- The faults of an operand, seen from the connective. -/
theorem ExpandedFault.operand {key : String} {op : Connective} {items : List Json} {position : Nat}
    {item : Json} {fault expanded : Fault} (known : ExpressionKey.ofText key = .connective op)
    (here : items[position]? = some item) (h : item.ExpandedFault fault expanded) :
    ExpandedFault (.object [(key, .array items)])
      ((fault.under [.index position]).under [.key key])
      ((expanded.under [.index position]).under [.key key]) := by
  cases h with
  | tooDeep => exact .tooDeep
  | value short unfit => exact .value ⟨.operand known here short.1, short.2⟩ unfit
  | elsewhere reason other =>
    apply ExpandedFault.elsewhere
    rintro place field inner ⟨located, named⟩ same
    cases located with
    | root => simp at same
    | operand _ here' below =>
      simp only [List.cons_append, List.nil_append, List.cons.injEq, Segment.index.injEq] at same
      obtain ⟨-, rfl, same⟩ := same
      obtain rfl := Option.some.inj (here.symm.trans here')
      exact other _ _ _ ⟨below, named⟩ same

end Json

namespace Filter

/-! ## Reading -/

/-- The outcome of a document beside that of the expanded document: the same value, or faults in
the same place up to the keywords. -/
def ExpandsTo {α : Type} (document : Json) (outcome expanded : Except Fault α) : Prop :=
  (∃ a, outcome = .ok a ∧ expanded = .ok a) ∨
  ∃ fault fault', document.ExpandedFault fault fault' ∧ outcome = .error fault ∧
    expanded = .error fault'

theorem expandsTo_of_inert {α : Type} {document : Json} (inert : document.Inert)
    (outcome : Except Fault α) : ExpandsTo document outcome outcome := by
  cases outcome with
  | ok a => exact .inl ⟨a, rfl, rfl⟩
  | error fault => exact .inr ⟨fault, fault, inert.expandedFault fault, rfl, rfl⟩

/-- An equality is read from the value of its field, with its keyword or without. -/
theorem ofExpression_expand_field {levels : Nat} {key : String} (named : namesField key = true)
    (value : Json) :
    ExpandsTo (.object [(key, value)]) (ofExpression (levels + 1) (.object [(key, value)]))
      (ofExpression (levels + 1) (.object [(CompareOp.eq.keyword, .object [(key, value)])])) := by
  obtain ⟨notEmpty, known⟩ := (namesField_iff key).1 named
  rw [ofExpression_field notEmpty known, ofExpression_compare (ExpressionKey.ofText_compare .eq),
    ofComparison_singleton notEmpty, ofField]
  cases unfit : Literal.ofJson .eq value with
  | ok literal => exact .inl ⟨_, rfl, rfl⟩
  | error reason =>
    have short : Json.ShortAt (.object [(key, value)]) [] key value := ⟨.root _, named⟩
    exact .inr ⟨_, _, .value short unfit, rfl, rfl⟩

section Step

variable {levels : Nat}
  (expression : ∀ document,
    ExpandsTo document (ofExpression levels document) (ofExpression levels document.expand))

include expression

/-- The first operand at fault is the same. -/
theorem ofItems_expandItems (items : List Json) (position : Nat) :
    (∃ operands, ofItems levels position items = .ok operands ∧
      ofItems levels position (Json.expandItems items) = .ok operands) ∨
    ∃ (i : Nat) (item : Json) (fault fault' : Fault), items[i]? = some item ∧
      item.ExpandedFault fault fault' ∧
      ofItems levels position items = .error (fault.under [.index (position + i)]) ∧
      ofItems levels position (Json.expandItems items) =
        .error (fault'.under [.index (position + i)]) := by
  induction items generalizing position with
  | nil => exact .inl ⟨[], rfl, rfl⟩
  | cons item rest ih =>
    rw [Json.expandItems]
    rcases expression item with ⟨operand, read, read'⟩ | ⟨fault, fault', same, refused, refused'⟩
    · rw [ofItems_cons_of_ok read, ofItems_cons_of_ok read']
      rcases ih (position + 1) with
        ⟨operands, reads, reads'⟩ | ⟨i, found, fault, fault', here, same, refused, refused'⟩
      · rw [reads, reads']
        exact .inl ⟨operand :: operands, rfl, rfl⟩
      · rw [refused, refused', Nat.add_assoc, Nat.add_comm 1]
        exact .inr ⟨i + 1, found, fault, fault', here, same, rfl, rfl⟩
    · rw [ofItems_cons_of_error refused, ofItems_cons_of_error refused']
      exact .inr ⟨0, item, fault, fault', rfl, same, rfl, rfl⟩

theorem ofExpression_expand_connective {key : String} {op : Connective}
    (known : ExpressionKey.ofText key = .connective op) (value : Json) :
    ExpandsTo (.object [(key, value)]) (ofExpression (levels + 1) (.object [(key, value)]))
      (ofExpression (levels + 1) (.object [(key, value.expandOperands)])) := by
  rw [ofExpression_connective known, ofExpression_connective known]
  have own := Json.expandedFault_connective known value
  cases value with
  | array items =>
    by_cases many : 2 ≤ items.length
    · have many' : 2 ≤ (Json.expandItems items).length := by rwa [Json.length_expandItems]
      rw [Json.expandOperands, ofOperands_of_many many, ofOperands_of_many many']
      rcases ofItems_expandItems expression items 0 with
        ⟨operands, reads, reads'⟩ | ⟨i, item, fault, fault', here, same, refused, refused'⟩
      · rw [reads, reads']
        exact .inl ⟨_, rfl, rfl⟩
      · rw [refused, refused', Nat.zero_add]
        exact .inr ⟨_, _, same.operand known here, rfl, rfl⟩
    · have few : items.length < 2 := Nat.lt_of_not_le many
      have few' : (Json.expandItems items).length < 2 := by rwa [Json.length_expandItems]
      rw [Json.expandOperands, ofOperands_of_few few, ofOperands_of_few few',
        Json.length_expandItems]
      exact .inr ⟨_, _, own _, rfl, rfl⟩
  | _ => exact .inr ⟨_, _, own _, rfl, rfl⟩

theorem ofExpression_expand_step (document : Json) :
    ExpandsTo document (ofExpression (levels + 1) document)
      (ofExpression (levels + 1) document.expand) := by
  cases form document with
  | refused bad all =>
    have inert : document.Inert := by
      intro key value same
      rcases bad key value same with empty | unknown
      · obtain rfl := String.isEmpty_iff.1 empty
        exact ⟨rfl, nofun⟩
      · exact ⟨namesField_of_ne_field (by simp [unknown]), by simp [unknown]⟩
    rw [inert.expand_eq]
    exact expandsTo_of_inert inert _
  | connective value known =>
    rw [Json.expand_connective known]
    exact ofExpression_expand_connective expression known value
  | @compare key op value known =>
    have inert : Json.Inert (.object [(key, value)]) := by
      rintro key inner ⟨⟩
      exact ⟨namesField_of_ne_field (by simp [known]), by simp [known]⟩
    rw [inert.expand_eq]
    exact expandsTo_of_inert inert _
  | field value named known =>
    have isField := (namesField_iff _).2 ⟨named, known⟩
    rw [Json.expand_field isField]
    exact ofExpression_expand_field isField value

end Step

/-- **An expanded expression is read as the same filter, or refused for the same reason.** -/
theorem ofExpression_expand (levels : Nat) (document : Json) :
    ExpandsTo document (ofExpression levels document) (ofExpression levels document.expand) := by
  induction levels generalizing document with
  | zero => exact .inr ⟨_, _, .tooDeep, by rw [ofExpression], by rw [ofExpression]⟩
  | succ levels ih => exact ofExpression_expand_step ih document

end Filter

end MetadataFilter
