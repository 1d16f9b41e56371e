/-!
# Modes of writing

How field names and literals get into a fragment.
-/

namespace MetadataFilter

inductive Mode
  /-- Text between quotes as it is. -/
  | legacy
  /-- Text between quotes with quotes and backslashes escaped. -/
  | escaped
  /-- Field names as in the escaped mode, and a numbered parameter for each literal. -/
  | parameterized
  deriving DecidableEq

namespace Mode

def all : List Mode := [.legacy, .escaped, .parameterized]

def label : Mode → String
  | .legacy => "legacy"
  | .escaped => "escaped"
  | .parameterized => "parameterized"

def ofLabel? (label : String) : Option Mode := all.find? (·.label == label)

/-- The modes that escape text also refuse lists of mixed types. -/
def isStrict : Mode → Bool
  | .legacy => false
  | .escaped | .parameterized => true

end Mode

end MetadataFilter
