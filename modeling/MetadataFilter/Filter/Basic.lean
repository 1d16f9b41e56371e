import MetadataFilter.Number.Binary64

/-!
# Filters over metadata

A filter is a tree of comparisons of metadata fields with literals, combined by `and` and `or`; the
filter `always` puts no constraint. Each operator has a keyword, which names it in documents and
paths, and a symbol, which stands for it in a fragment.
-/

namespace MetadataFilter

inductive CompareOp
  | eq | ne | lt | lte | gt | gte | like | ilike | oneOf | noneOf
  deriving DecidableEq

namespace CompareOp

def all : List CompareOp := [.eq, .ne, .lt, .lte, .gt, .gte, .like, .ilike, .oneOf, .noneOf]

def keyword : CompareOp → String
  | .eq => "$eq"
  | .ne => "$ne"
  | .lt => "$lt"
  | .lte => "$lte"
  | .gt => "$gt"
  | .gte => "$gte"
  | .like => "$like"
  | .ilike => "$ilike"
  | .oneOf => "$in"
  | .noneOf => "$nin"

def symbol : CompareOp → String
  | .eq => "="
  | .ne => "!="
  | .lt => "<"
  | .lte => "<="
  | .gt => ">"
  | .gte => ">="
  | .like => "like"
  | .ilike => "ilike"
  | .oneOf => "in"
  | .noneOf => "not in"

/-- Set membership takes a list; every other operator takes a single value. -/
def isSet : CompareOp → Bool
  | .oneOf | .noneOf => true
  | _ => false

def ofKeyword? (keyword : String) : Option CompareOp := all.find? (·.keyword == keyword)

theorem ofKeyword?_keyword (op : CompareOp) : ofKeyword? op.keyword = some op := by
  cases op <;> decide

end CompareOp

inductive Connective
  | and | or
  deriving DecidableEq

namespace Connective

def all : List Connective := [.and, .or]

def keyword : Connective → String
  | .and => "$and"
  | .or => "$or"

def symbol : Connective → String
  | .and => "and"
  | .or => "or"

def ofKeyword? (keyword : String) : Option Connective := all.find? (·.keyword == keyword)

theorem ofKeyword?_keyword (op : Connective) : ofKeyword? op.keyword = some op := by
  cases op <;> decide

end Connective

inductive Scalar
  | string (value : String)
  | integer (value : Int64)
  | float (value : Binary64)
  | bool (value : Bool)
  deriving DecidableEq

/-- The right-hand side of a comparison. -/
inductive Literal
  | scalar (value : Scalar)
  | list (values : List Scalar)
  deriving DecidableEq

inductive Filter
  | always
  | compare (op : CompareOp) (field : String) (value : Literal)
  | combine (op : Connective) (operands : List Filter)
  deriving Inhabited

namespace Filter

def isAlways : Filter → Bool
  | .always => true
  | _ => false

mutual

/-- How deep the filter nests. A comparison has depth 1. -/
def depth : Filter → Nat
  | .always => 0
  | .compare _ _ _ => 1
  | .combine _ operands => 1 + depthOfAll operands

def depthOfAll : List Filter → Nat
  | [] => 0
  | operand :: rest => max operand.depth (depthOfAll rest)

end

end Filter

end MetadataFilter
