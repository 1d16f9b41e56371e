import MetadataFilter.Filter.Error

/-!
# Lists of one type

A typed list literal holds strings only, numbers only or booleans only. `Filter.checkListTypes`
refuses the first list, from left to right, that mixes them; nothing else about the filter is looked
at.
-/

namespace MetadataFilter

/-- The family of the first member and the first different family after it, if there is one. -/
def Scalar.mixedFamilies? : List Scalar → Option (Family × Family)
  | [] => none
  | first :: rest =>
    (rest.find? fun other => other.family ≠ first.family).map fun other =>
      (first.family, other.family)

/-- The families that a list literal mixes. -/
def Literal.mixedFamilies? : Literal → Option (Family × Family)
  | .scalar _ => none
  | .list values => Scalar.mixedFamilies? values

namespace Filter

mutual

/-- Where the first mixed list stands, and which families it mixes. -/
def mixedList? : Filter → Option (Path × Family × Family)
  | .always => none
  | .compare op _ value => value.mixedFamilies?.map fun families => ([.key op.keyword], families)
  | .combine op operands =>
    (mixedListAmong? 0 operands).map fun (path, families) => (.key op.keyword :: path, families)

/-- The first mixed list in several operands, the first of which stands at `position`. -/
def mixedListAmong? (position : Nat) : List Filter → Option (Path × Family × Family)
  | [] => none
  | operand :: rest =>
    match operand.mixedList? with
    | some (path, families) => some (.index position :: path, families)
    | none => mixedListAmong? (position + 1) rest

end

/-- Refuses a filter with a mixed list. -/
def checkListTypes (filter : Filter) : Except FilterError Unit :=
  match filter.mixedList? with
  | none => .ok ()
  | some (path, first, other) => .error (.invalid path (.mixedList first other))

end Filter

end MetadataFilter
