import MetadataFilter.Filter.Basic
import MetadataFilter.Json.Value
import MetadataFilter.Number.Layout

/-!
# What is wrong with a filter

A `Fault` is found at some place below the value or filter that is looked at: its path is relative
to that place, and `Fault.under` moves it below an enclosing one. `FilterError` is the fault of a
whole filter, with the limit that was set. Causes are values; `Reason.message` and
`FilterError.message` hold all wording.
-/

namespace MetadataFilter

inductive Segment
  | key (name : String)
  | index (position : Nat)
  deriving DecidableEq

/-- The steps from a value or filter down to a place in it. -/
abbrev Path := List Segment

def Segment.text : Segment → String
  | .key name => "." ++ name
  | .index position => "[" ++ toString position ++ "]"

/-- The text of a path from the root. -/
def Path.text (path : Path) : String :=
  path.foldl (fun text segment => text ++ segment.text) "filter"

/-- The types that the members of a list literal can have. Integers and floating-point numbers are
of one family. -/
inductive Family
  | string | number | boolean
  deriving DecidableEq

def Family.name : Family → String
  | .string => "string"
  | .number => "number"
  | .boolean => "boolean"

def Scalar.family : Scalar → Family
  | .string _ => .string
  | .integer _ | .float _ => .number
  | .bool _ => .boolean

/-- Why a filter is refused. -/
inductive Reason
  | expectedObject (found : Json.Kind)
  | expectedOperands (found : Json.Kind)
  | expectedFieldValue (found : Json.Kind)
  | expectedScalar (found : Json.Kind)
  | emptyFieldName
  | emptyExpression
  | severalKeys (keys : List String)
  | unknownOperator (key : String)
  | tooFewOperands (count : Nat)
  | listNotAccepted (op : CompareOp)
  | listRequired (op : CompareOp)
  | emptyList (op : CompareOp)
  | nestedList
  | integerOutOfRange (value : Int)
  | notFinite (value : Binary64)
  | mixedList (first other : Family)
  deriving DecidableEq

def Reason.message : Reason → String
  | .expectedObject found => "expected an object, got " ++ found.name
  | .expectedOperands found => "expected a list of expressions, got " ++ found.name
  | .expectedFieldValue found => "expected a \x7bfield: value\x7d object, got " ++ found.name
  | .expectedScalar found => "expected a string, number or boolean, got " ++ found.name
  | .emptyFieldName => "field name is empty"
  | .emptyExpression => "empty nested expression"
  | .severalKeys keys => "expected exactly one key, got " ++ String.intercalate ", " keys
  | .unknownOperator key => "unknown operator " ++ key
  | .tooFewOperands count => "expected at least 2 operands, got " ++ toString count
  | .listNotAccepted op => op.keyword ++ " does not accept a list value"
  | .listRequired op => op.keyword ++ " requires a list value"
  | .emptyList op => op.keyword ++ " requires a non-empty list"
  | .nestedList => "nested lists are not supported"
  | .integerOutOfRange value => "integer " ++ String.ofList (intText value) ++ " is out of range"
  | .notFinite value => "non-finite number " ++ String.ofList (Fragment.floatText value)
  | .mixedList first other => "list mixes " ++ first.name ++ " and " ++ other.name ++ " values"

/-- A fault below some place: the nesting goes too deep, or the value at a path is refused. -/
inductive Fault
  | tooDeep
  | refused (path : Path) (reason : Reason)
  deriving DecidableEq

/-- The fault seen from a place that encloses it. -/
def Fault.under (enclosing : Path) : Fault → Fault
  | .tooDeep => .tooDeep
  | .refused path reason => .refused (enclosing ++ path) reason

inductive FilterError
  | invalid (path : Path) (reason : Reason)
  | depthExceeded (limit : Nat)
  deriving DecidableEq

/-- The fault of a filter that was read or checked with a limit on its nesting. -/
def Fault.atLimit (limit : Nat) : Fault → FilterError
  | .tooDeep => .depthExceeded limit
  | .refused path reason => .invalid path reason

def FilterError.message : FilterError → String
  | .invalid path reason =>
    "invalid filter expression at " ++ path.text ++ ": " ++ reason.message
  | .depthExceeded limit => "filter nesting exceeds maximum depth of " ++ toString limit

end MetadataFilter
