import MetadataFilter.Filter.Document
import MetadataFilter.Proofs.Outcome

/-!
# Documents up to the content of their scalars

The outline of a document keeps its lists, its objects with their keys, and of each scalar only
what kind it is. So two documents have the same outline exactly if they differ in scalars only,
each in one of the same kind. An integer that no literal can hold is kept, as its value is part of
the fault that is reported for it.

Reading does not look at what an outline leaves out: the filter of an outline is the outline of the
filter, and the faults are the same (`Filter.ofJson_outline`).
-/

namespace MetadataFilter

def Json.Number.outline : Json.Number → Json.Number
  | .integer n inRange =>
    if Int64.minValue.toInt ≤ n ∧ n ≤ Int64.maxValue.toInt then .integer 0 (by decide)
    else .integer n inRange
  | .float _ _ => .float (.zero false) rfl

namespace Json

mutual

/-- The document with every scalar replaced by one that depends on its kind only. -/
def outline : Json → Json
  | .null => .null
  | .bool _ => .bool false
  | .number n => .number n.outline
  | .string _ => .string ""
  | .array items => .array (outlineItems items)
  | .object members => .object (outlineMembers members)

def outlineItems : List Json → List Json
  | [] => []
  | item :: rest => item.outline :: outlineItems rest

def outlineMembers : List (String × Json) → List (String × Json)
  | [] => []
  | (key, value) :: rest => (key, value.outline) :: outlineMembers rest

end

@[simp] theorem length_outlineItems (items : List Json) :
    (outlineItems items).length = items.length := by
  induction items with
  | nil => rfl
  | cons item rest ih => rw [outlineItems, List.length_cons, List.length_cons, ih]

@[simp] theorem isEmpty_outlineItems (items : List Json) :
    (outlineItems items).isEmpty = items.isEmpty := by
  cases items <;> rfl

@[simp] theorem keys_outlineMembers (members : List (String × Json)) :
    (outlineMembers members).map Prod.fst = members.map Prod.fst := by
  induction members with
  | nil => rfl
  | cons member rest ih => rw [outlineMembers, List.map_cons, List.map_cons, ih]

end Json

/-! ## Filters -/

/-- A scalar that depends on the kind of the scalar only. -/
def Scalar.outline : Scalar → Scalar
  | .string _ => .string ""
  | .integer _ => .integer 0
  | .float _ => .float (.zero false)
  | .bool _ => .bool false

def Literal.mapScalars (f : Scalar → Scalar) : Literal → Literal
  | .scalar x => .scalar (f x)
  | .list xs => .list (xs.map f)

namespace Filter

mutual

/-- The filter with other scalars in their places. -/
def mapScalars (f : Scalar → Scalar) : Filter → Filter
  | .always => .always
  | .compare op field value => .compare op field (value.mapScalars f)
  | .combine op operands => .combine op (mapScalarsOfAll f operands)

def mapScalarsOfAll (f : Scalar → Scalar) : List Filter → List Filter
  | [] => []
  | operand :: rest => operand.mapScalars f :: mapScalarsOfAll f rest

end

def outline (filter : Filter) : Filter := filter.mapScalars Scalar.outline

end Filter

/-! ## Reading literals -/

theorem Scalar.ofJson_outline (value : Json) :
    Scalar.ofJson value.outline = (Scalar.ofJson value).map Scalar.outline := by
  match value with
  | .null | .bool _ | .string _ | .array _ | .object _ => rfl
  | .number (.float _ _) => rfl
  | .number (.integer n inRange) =>
    rw [Json.outline, Json.Number.outline]
    by_cases fits : Int64.minValue.toInt ≤ n ∧ n ≤ Int64.maxValue.toInt
    · rw [if_pos fits, Scalar.ofJson, Scalar.ofJson, dif_pos (by decide), dif_pos fits]
      rfl
    · rw [if_neg fits, Scalar.ofJson, dif_neg fits]
      rfl

theorem Scalar.listOfJson_outline (items : List Json) :
    Scalar.listOfJson (Json.outlineItems items) =
      (Scalar.listOfJson items).map (List.map Scalar.outline) := by
  induction items with
  | nil => rfl
  | cons item rest ih =>
    rw [Json.outlineItems, Scalar.listOfJson, Scalar.listOfJson, Scalar.ofJson_outline, ih]
    cases Scalar.ofJson item with
    | error reason => rfl
    | ok x => cases Scalar.listOfJson rest <;> rfl

theorem Literal.ofJson_outline (op : CompareOp) (value : Json) :
    Literal.ofJson op value.outline =
      (Literal.ofJson op value).map (mapScalars Scalar.outline) := by
  by_cases isArray : ∃ items, value = .array items
  · obtain ⟨items, rfl⟩ := isArray
    simp only [Json.outline, Literal.ofJson, Json.isEmpty_outlineItems, Scalar.listOfJson_outline]
    split
    · split
      · rfl
      · cases Scalar.listOfJson items <;> rfl
    · rfl
  · have notArray : ∀ items, value ≠ .array items := fun items h => isArray ⟨items, h⟩
    have outlineNotArray : ∀ items, value.outline ≠ .array items := by
      cases value with
      | array items => exact absurd rfl (notArray items)
      | _ => nofun
    rw [ofJson_of_ne_array op notArray, ofJson_of_ne_array op outlineNotArray,
      Scalar.ofJson_outline]
    split
    · rfl
    · cases Scalar.ofJson value <;> rfl

namespace Filter

/-! ## Reading expressions -/

theorem ofField_outline (op : CompareOp) (field : String) (value : Json) :
    ofField op field value.outline = (ofField op field value).map outline := by
  rw [ofField, ofField, Literal.ofJson_outline]
  cases Literal.ofJson op value <;> rfl

theorem singleMember_outline (members : List (String × Json)) :
    singleMember (Json.outlineMembers members) =
      (singleMember members).map fun (key, value) => (key, value.outline) := by
  match members with
  | [] => rfl
  | [(key, value)] =>
    simp only [Json.outlineMembers, singleMember]
    split <;> rfl
  | first :: second :: rest =>
    have keys := Json.keys_outlineMembers (first :: second :: rest)
    simp only [Json.outlineMembers, singleMember] at keys ⊢
    rw [keys]
    rfl

theorem ofComparison_outline (op : CompareOp) (value : Json) :
    ofComparison op value.outline = (ofComparison op value).map outline := by
  cases value with
  | object members =>
    simp only [Json.outline, ofComparison, singleMember_outline]
    cases singleMember members with
    | error reason => rfl
    | ok member => exact ofField_outline op member.1 member.2
  | _ => rfl

section Step

variable {levels : Nat}
  (expression : ∀ document : Json,
    ofExpression levels document.outline = (ofExpression levels document).map outline)

include expression

theorem ofItems_outline (items : List Json) (position : Nat) :
    ofItems levels position (Json.outlineItems items) =
      (ofItems levels position items).map (mapScalarsOfAll Scalar.outline) := by
  induction items generalizing position with
  | nil => rfl
  | cons item rest ih =>
    simp only [Json.outlineItems, ofItems, expression, ih]
    cases ofExpression levels item with
    | error fault => rfl
    | ok operand => cases ofItems levels (position + 1) rest <;> rfl

theorem ofOperands_outline (value : Json) :
    ofOperands levels value.outline =
      (ofOperands levels value).map (mapScalarsOfAll Scalar.outline) := by
  cases value with
  | array items =>
    simp only [Json.outline, ofOperands, Json.length_outlineItems]
    split
    · rfl
    · exact ofItems_outline expression items 0
  | _ => rfl

theorem ofExpression_outline_step (document : Json) :
    ofExpression (levels + 1) document.outline =
      (ofExpression (levels + 1) document).map outline := by
  match document with
  | .null | .bool _ | .number _ | .string _ | .array _ | .object [] => rfl
  | .object [(key, value)] =>
    simp only [Json.outline, Json.outlineMembers, ofExpression]
    split
    · rfl
    · cases ExpressionKey.ofText key with
      | connective op =>
        simp only [ofOperands_outline expression]
        cases ofOperands levels value <;> rfl
      | compare op =>
        simp only [ofComparison_outline]
        cases ofComparison op value <;> rfl
      | field => exact ofField_outline .eq key value
      | unknown => rfl
  | .object (first :: second :: rest) =>
    have keys := Json.keys_outlineMembers (first :: second :: rest)
    simp only [Json.outline, Json.outlineMembers, ofExpression] at keys ⊢
    rw [keys]
    rfl

end Step

theorem ofExpression_outline (levels : Nat) (document : Json) :
    ofExpression levels document.outline = (ofExpression levels document).map outline := by
  induction levels generalizing document with
  | zero => simp only [ofExpression]; rfl
  | succ levels ih => exact ofExpression_outline_step ih document

/-- **Reading looks at the outline of a document only**, for its result up to the content of the
scalars and for all of its faults. -/
theorem ofJson_outline (limit : Nat) (document : Json) :
    ofJson limit document.outline = (ofJson limit document).map outline := by
  have expression := congrArg (Except.mapError (Fault.atLimit limit))
    (ofExpression_outline limit document)
  rw [mapError_map] at expression
  match document with
  | .null | .object [] => rfl
  | .bool _ | .number _ | .string _ | .array _ | .object (_ :: _) => exact expression

end Filter

end MetadataFilter
