import MetadataFilter.Filter.ListTypes
import MetadataFilter.Filter.Validity
import MetadataFilter.Fragment.Basic

/-!
# Compiling filters

A compiler turns a filter document (`Compiler.compile`) or a filter (`Compiler.compileFilter`) into
a fragment with its parameters, or into the first fault. Both check the same things, a document
while it is read and a filter before it is written; the strict modes also refuse lists of mixed
types.
-/

namespace MetadataFilter

def defaultMaxDepth : Nat := 32

/-- A compiler: how to write, and how deep filters may nest. -/
structure Compiler where
  mode : Mode := .legacy
  maxDepth : Nat := defaultMaxDepth
  deriving DecidableEq

namespace Compiler

/-- The strict modes refuse lists of mixed types. -/
def checkStrict (compiler : Compiler) (filter : Filter) : Except FilterError Unit :=
  if compiler.mode.isStrict then filter.checkListTypes else .ok ()

def compile (compiler : Compiler) (document : Json) : Except FilterError CompiledFilter := do
  let filter ← Filter.ofJson compiler.maxDepth document
  compiler.checkStrict filter
  return filter.render compiler.mode

def compileFilter (compiler : Compiler) (filter : Filter) : Except FilterError CompiledFilter := do
  filter.validate compiler.maxDepth
  compiler.checkStrict filter
  return filter.render compiler.mode

end Compiler

def compileLegacy (document : Json) : Except FilterError String := do
  let filter ← Filter.ofJson defaultMaxDepth document
  return (filter.render .legacy).fragment

/-- The legacy fragment of a filter that is well formed. -/
def Filter.toText? (filter : Filter) : Option String :=
  match filter.validate defaultMaxDepth with
  | .ok () => some (filter.render .legacy).fragment
  | .error _ => none

end MetadataFilter
