import MetadataFilter.Filter.Error

/-!
# Well-formed filters

`Filter.validate` checks what rendering relies on: the nesting limit, `always` only at the root, two
or more operands under a connective, a field name that is not empty, a list exactly for the
operators on sets and then one that is not empty, and finite numbers only. The first fault in
pre-order is reported; its path names the operators on the way.
-/

namespace MetadataFilter

/-- A number that is not finite is refused. -/
def Scalar.check : Scalar → Except Reason Unit
  | .float x => if x.isFinite then .ok () else .error (.notFinite x)
  | _ => .ok ()

/-- The first number of a list that is not finite is refused. -/
def Scalar.checkAll : List Scalar → Except Reason Unit
  | [] => .ok ()
  | value :: rest => do
    value.check
    Scalar.checkAll rest

/-- Lists go with the operators on sets, single values with all others. -/
def Literal.check (op : CompareOp) : Literal → Except Reason Unit
  | .list values =>
    if op.isSet then
      if values.isEmpty then .error (.emptyList op) else Scalar.checkAll values
    else .error (.listNotAccepted op)
  | .scalar value => if op.isSet then .error (.listRequired op) else value.check

namespace Filter

/-- A comparison has a field name and a fitting literal. -/
def checkComparison (op : CompareOp) (field : String) (value : Literal) : Except Reason Unit :=
  if field.isEmpty then .error .emptyFieldName else value.check op

mutual

/-- Checks a filter that is an operand, or a root other than `always`; it may nest `levels` deep. -/
def check (levels : Nat) (filter : Filter) : Except Fault Unit :=
  match levels with
  | 0 => .error .tooDeep
  | levels + 1 =>
    match filter with
    | .always => .error (.refused [] .emptyExpression)
    | .compare op field value =>
      (checkComparison op field value).mapError (Fault.refused [.key op.keyword])
    | .combine op operands =>
      if operands.length < 2 then
        .error (.refused [.key op.keyword] (.tooFewOperands operands.length))
      else (checkOperands levels 0 operands).mapError (Fault.under [.key op.keyword])

/-- Checks the operands of a connective, the first of which stands at `position`. -/
def checkOperands (levels position : Nat) : List Filter → Except Fault Unit
  | [] => .ok ()
  | operand :: rest => do
    (check levels operand).mapError (Fault.under [.index position])
    checkOperands levels (position + 1) rest

end

/-- Checks a whole filter that may nest `limit` deep. -/
def validate (limit : Nat) : Filter → Except FilterError Unit
  | .always => if limit = 0 then .error (.depthExceeded limit) else .ok ()
  | filter => (check limit filter).mapError (Fault.atLimit limit)

end Filter

end MetadataFilter
