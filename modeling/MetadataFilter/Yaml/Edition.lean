/-!
# Editions of YAML

Two editions of YAML are read: 1.1 for filter documents and 1.2 for settings. They differ in what
ends a line, in the characters of names, in how much of a document's layout is checked, and in what
scalars mean. What they share is written once, with the edition as an argument. The plain scalars
that stand for null and for the booleans are the same in both; a scalar without text is null too,
which the callers decide.
-/

namespace MetadataFilter.Yaml

/-- An edition of YAML. -/
inductive Edition
  | v11
  | v12
  deriving DecidableEq

/-- The characters that end a line: in 1.1 also the line ends of Unicode. -/
def isBreak : Edition → Char → Bool
  | .v11, c => c == '\r' || c == '\n' || c == '\x85' || c == '\u2028' || c == '\u2029'
  | .v12, c => c == '\r' || c == '\n'

def isSpaceOrTab (c : Char) : Bool := c == ' ' || c == '\t'

def isGap (e : Edition) (c : Char) : Bool := isSpaceOrTab c || isBreak e c

/-- Letters, digits, underscore and hyphen: the characters of names. -/
def isNameChar (c : Char) : Bool := c.isAlphanum || c == '_' || c == '-'

/-- The characters that open, close and divide collections in brackets. -/
def isFlowIndicator (c : Char) : Bool := c == ',' || c == '[' || c == ']' || c == '{' || c == '}'

/-- The unit of distances in a text is the byte in 1.1 and the character in 1.2. -/
def Edition.width : Edition → Char → Nat
  | .v11, c => c.utf8Size
  | .v12, _ => 1

def isNullWord (text : String) : Bool := ["null", "Null", "NULL", "~"].contains text

def boolWord? (text : String) : Option Bool :=
  if ["true", "True", "TRUE"].contains text then some true
  else if ["false", "False", "FALSE"].contains text then some false
  else none

end MetadataFilter.Yaml
