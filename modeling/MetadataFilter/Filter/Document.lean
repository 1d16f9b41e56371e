import MetadataFilter.Filter.Error

/-!
# Filter documents

A filter document is a JSON value with one key per object:

* a field name with a literal is an equality;
* a comparison keyword with an object of one field and its literal is that comparison;
* `$and` and `$or` with a list of two or more expressions combine them.

`null` and the empty object, at the root only, are the filter without constraint.

`Filter.ofJson` reads a document; the first fault in the order of the document is reported.
`Filter.toJson` writes the canonical document of a filter, with a keyword at every comparison.
-/

namespace MetadataFilter

/-- What the key of an expression says. -/
inductive ExpressionKey
  | connective (op : Connective)
  | compare (op : CompareOp)
  | field
  | unknown
  deriving DecidableEq

/-- Keywords come first; any other key that starts with a dollar sign is not a field. -/
def ExpressionKey.ofText (key : String) : ExpressionKey :=
  match Connective.ofKeyword? key with
  | some op => .connective op
  | none =>
    match CompareOp.ofKeyword? key with
    | some op => .compare op
    | none => if key.toList.head? = some '$' then .unknown else .field

def Scalar.ofJson : Json → Except Reason Scalar
  | .string s => .ok (.string s)
  | .bool b => .ok (.bool b)
  | .number (.integer n _) =>
    if h : Int64.minValue.toInt ≤ n ∧ n ≤ Int64.maxValue.toInt then
      .ok (.integer (Int64.ofIntLE n h.1 h.2))
    else .error (.integerOutOfRange n)
  | .number (.float x _) => .ok (.float x)
  | .array _ => .error .nestedList
  | value => .error (.expectedScalar value.kind)

def Scalar.listOfJson : List Json → Except Reason (List Scalar)
  | [] => .ok []
  | item :: rest => do
    let scalar ← Scalar.ofJson item
    let scalars ← Scalar.listOfJson rest
    return scalar :: scalars

/-- The literal of a comparison: a list that is not empty exactly for the operators on sets. -/
def Literal.ofJson (op : CompareOp) : Json → Except Reason Literal
  | .array items =>
    if op.isSet then
      if items.isEmpty then .error (.emptyList op) else (Scalar.listOfJson items).map .list
    else .error (.listNotAccepted op)
  | value => if op.isSet then .error (.listRequired op) else (Scalar.ofJson value).map .scalar

theorem Literal.ofJson_of_ne_array (op : CompareOp) {value : Json}
    (h : ∀ items, value ≠ .array items) :
    Literal.ofJson op value =
      if op.isSet then .error (.listRequired op) else (Scalar.ofJson value).map .scalar := by
  cases value with
  | array items => exact absurd rfl (h items)
  | _ => rfl

namespace Filter

/-- A reason at a place given by its path. -/
def refuse {α : Type} (path : Path) (reason : Reason) : Except Fault α :=
  .error (.refused path reason)

/-- The comparison of a field with a literal. -/
def ofField (op : CompareOp) (field : String) (value : Json) : Except Fault Filter :=
  match Literal.ofJson op value with
  | .ok literal => .ok (.compare op field literal)
  | .error reason => refuse [.key field] reason

/-- The only member of an object, which has a name. -/
def singleMember : List (String × Json) → Except Reason (String × Json)
  | [] => .error .emptyExpression
  | [member] => if member.1.isEmpty then .error .emptyFieldName else .ok member
  | members => .error (.severalKeys (members.map Prod.fst))

/-- The comparison below a keyword: an object of one field and its literal. -/
def ofComparison (op : CompareOp) : Json → Except Fault Filter
  | .object members =>
    match singleMember members with
    | .ok (field, value) => ofField op field value
    | .error reason => refuse [] reason
  | value => refuse [] (.expectedFieldValue value.kind)

mutual

/-- The filter of an expression that may nest `levels` deep. -/
def ofExpression (levels : Nat) (document : Json) : Except Fault Filter :=
  match levels with
  | 0 => .error .tooDeep
  | levels + 1 =>
    match document with
    | .object [] => refuse [] .emptyExpression
    | .object [(key, value)] =>
      if key.isEmpty then refuse [] .emptyFieldName
      else match ExpressionKey.ofText key with
      | .connective op =>
        ((ofOperands levels value).map (.combine op)).mapError (Fault.under [.key key])
      | .compare op => (ofComparison op value).mapError (Fault.under [.key key])
      | .field => ofField .eq key value
      | .unknown => refuse [] (.unknownOperator key)
    | .object members => refuse [] (.severalKeys (members.map Prod.fst))
    | value => refuse [] (.expectedObject value.kind)

/-- The operands of a connective: two or more expressions. -/
def ofOperands (levels : Nat) : Json → Except Fault (List Filter)
  | .array items =>
    if items.length < 2 then refuse [] (.tooFewOperands items.length)
    else ofItems levels 0 items
  | value => refuse [] (.expectedOperands value.kind)

/-- The expressions of a list, the first of which stands at `position`. -/
def ofItems (levels position : Nat) : List Json → Except Fault (List Filter)
  | [] => .ok []
  | item :: rest => do
    let operand ← (ofExpression levels item).mapError (Fault.under [.index position])
    let operands ← ofItems levels (position + 1) rest
    return operand :: operands

end

/-- The filter of a document that may nest `limit` deep. -/
def ofJson (limit : Nat) : Json → Except FilterError Filter
  | .null => .ok .always
  | .object [] => .ok .always
  | value => (ofExpression limit value).mapError (Fault.atLimit limit)

end Filter

/-! ## Canonical documents -/

def Scalar.toJson : Scalar → Json
  | .string s => .string s
  | .integer n => .ofInt64 n
  | .float x => .ofBinary64 x
  | .bool b => .bool b

def Literal.toJson : Literal → Json
  | .scalar value => value.toJson
  | .list values => .array (values.map Scalar.toJson)

namespace Filter

mutual

/-- The canonical document of a filter. -/
def toJson : Filter → Json
  | .always => .object []
  | .compare op field value => .object [(op.keyword, .object [(field, value.toJson)])]
  | .combine op operands => .object [(op.keyword, .array (toJsonAll operands))]

def toJsonAll : List Filter → List Json
  | [] => []
  | operand :: rest => operand.toJson :: toJsonAll rest

end

end Filter

end MetadataFilter
