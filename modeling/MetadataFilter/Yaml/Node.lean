/-!
# Nodes of a YAML document

A document is a tree of nodes. Scalars are still text, and what tags mean is not decided. An alias
is a number that the document's table of anchors leads to a node.
-/

namespace MetadataFilter.Yaml

/-- A tag: what its handle stands for, and its suffix. -/
structure Tag where
  base : String
  suffix : String
  deriving DecidableEq, Inhabited

def Tag.text (tag : Tag) : String := tag.base ++ tag.suffix

inductive Node
  | scalar (tag : Option Tag) (plain : Bool) (text : String)
  | sequence (tag : Option Tag) (items : List Node)
  | mapping (tag : Option Tag) (entries : List (Node × Node))
  | alias (number : Nat)
  deriving Inhabited

/-- The node of a place where the text shows nothing. -/
def Node.absent : Node := .scalar none true ""

/-- A document: its root and its anchored nodes by their numbers. -/
structure Document where
  root : Node
  anchored : Nat → Option Node

end MetadataFilter.Yaml
