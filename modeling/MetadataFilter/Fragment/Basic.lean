import MetadataFilter.Filter.Document
import MetadataFilter.Fragment.Mode
import MetadataFilter.Fragment.Quoted

/-!
# Fragments

`Filter.render` writes a filter from left to right: nothing for `always`, an accessor with an
operator and a literal for a comparison, and operands between parentheses for a connective. A
`Renderer` holds the text so far and the parameters so far, the latter as a map by their names. In
the parameterized mode a typed placeholder `$p<number>` stands for each scalar, the number being how
many parameters there are so far; the other modes write each scalar in place.
-/

namespace MetadataFilter

namespace Fragment

/-- Text between quotes, as the mode writes it. -/
def literalText (mode : Mode) (text : String) : List Char :=
  '"' :: (if mode.isStrict then escape text.toList else text.toList) ++ ['"']

/-- A scalar in place, as the mode writes it. -/
def scalarText (mode : Mode) : Scalar → List Char
  | .string s => literalText mode s
  | .integer n => intText n.toInt
  | .float x => floatText x
  | .bool b => (if b then "true" else "false").toList

def parameterType : Scalar → String
  | .string _ => "str"
  | .integer _ => "int64"
  | .float _ => "float64"
  | .bool _ => "bool"

def parameterName (number : Nat) : String := "p" ++ toString number

/-- The placeholder of the scalar with a number. -/
def placeholder (number : Nat) (x : Scalar) : List Char :=
  '<' :: (parameterType x).toList ++ ">$".toList ++ (parameterName number).toList

/-- An operator with a blank on each side. -/
def operatorText (symbol : String) : List Char := ' ' :: symbol.toList ++ [' ']

/-- What has been written so far, in which mode. -/
structure Renderer where
  mode : Mode
  text : String := ""
  params : List (String × Scalar) := []

namespace Renderer

def put (renderer : Renderer) (text : List Char) : Renderer :=
  { renderer with text := renderer.text ++ String.ofList text }

/-- Writes the path to a field of the metadata. -/
def accessor (renderer : Renderer) (field : String) : Renderer :=
  ((renderer.put "<str>json_get(.metadata, ".toList).put
    (literalText renderer.mode field)).put [')']

/-- Writes a placeholder for a scalar and makes it the value of the next parameter. -/
def addParam (renderer : Renderer) (x : Scalar) : Renderer :=
  let number := renderer.params.length
  { renderer.put (placeholder number x) with
    params := insertEntry (parameterName number) x renderer.params }

def scalar (renderer : Renderer) (x : Scalar) : Renderer :=
  match renderer.mode with
  | .parameterized => renderer.addParam x
  | .legacy | .escaped => renderer.put (scalarText renderer.mode x)

/-- Writes scalars with commas between them. -/
def scalars (renderer : Renderer) : List Scalar → Renderer
  | [] => renderer
  | [x] => renderer.scalar x
  | x :: rest => ((renderer.scalar x).put ", ".toList).scalars rest

def literal (renderer : Renderer) : Literal → Renderer
  | .scalar x => renderer.scalar x
  | .list xs => ((renderer.put "array_unpack([".toList).scalars xs).put "])".toList

mutual

def node (renderer : Renderer) : Filter → Renderer
  | .always => renderer
  | .compare op field value =>
    ((renderer.accessor field).put (operatorText op.symbol)).literal value
  | .combine op operands => ((renderer.put ['(']).operands op operands).put [')']

/-- Writes operands with a connective between them. -/
def operands (renderer : Renderer) (op : Connective) : List Filter → Renderer
  | [] => renderer
  | [operand] => renderer.node operand
  | operand :: rest =>
    ((renderer.node operand).put (operatorText op.symbol)).operands op rest

end

end Renderer

/-- The fragment as a filter clause of a query. A filter without constraint has no clause. -/
def clause? (fragment : String) : Option String :=
  if fragment.isEmpty then none else some ("filter " ++ fragment)

end Fragment

/-- A fragment and the values of its parameters by their names. -/
structure CompiledFilter where
  fragment : String
  params : List (String × Scalar)
  deriving DecidableEq

namespace CompiledFilter

def isEmpty (compiled : CompiledFilter) : Bool := compiled.fragment.isEmpty

def paramsJson (compiled : CompiledFilter) : Json :=
  .object (compiled.params.map fun (name, x) => (name, x.toJson))

/-- The JSON object of a compiled filter. Parameters are left out if there are none. -/
def toJson (compiled : CompiledFilter) : Json :=
  .object (("fragment", .string compiled.fragment) ::
    if compiled.params.isEmpty then [] else [("params", compiled.paramsJson)])

end CompiledFilter

/-- A filter written in a mode. -/
def Filter.render (mode : Mode) (filter : Filter) : CompiledFilter :=
  let rendered := Fragment.Renderer.node { mode } filter
  { fragment := rendered.text, params := rendered.params }

end MetadataFilter
