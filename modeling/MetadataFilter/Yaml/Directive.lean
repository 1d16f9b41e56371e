import MetadataFilter.Yaml.Name

/-!
# Directives in a YAML text

A directive stands on a line of its own before a document: the version of YAML, or what a tag handle
stands for. Another directive is an error in 1.1; in 1.2 it says nothing.
-/

namespace MetadataFilter.Yaml

variable {e : Edition}

/-- One to nine digits. -/
def readVersionNumber? (c : Cursor e) : Option (Nat × Cursor e) :=
  let (digits, after) := c.takeWhile Char.isDigit
  if digits.isEmpty || 9 < digits.length then none
  else some (Nat.ofDigitChars 10 digits 0, after)

/-- Two numbers with a point between them. -/
def readVersion? (c : Cursor e) : Option (Token × Cursor e) := do
  let (major, afterMajor) ← readVersionNumber? c
  if !afterMajor.sees '.' then none
  let (minor, afterMinor) ← readVersionNumber? (afterMajor.skip 1)
  return (.version major minor, afterMinor)

/-- Whether what a handle stands for can start here, behind the handle at `handleEnd`: in 1.1 after
a blank, in 1.2 with any character but those that divide. -/
def startsHandleValue (handleEnd : Cursor e) (c : Cursor e) : Bool :=
  match e with
  | .v11 => handleEnd.column < c.column
  | .v12 => c.sees '!' || c.sees '%' || c.peek?.any (isUriChar .v12 .suffix)

/-- A tag handle and what it stands for. -/
def readTagHandle? (c : Cursor e) : Option (Token × Cursor e) := do
  let (handle, afterHandle) ← readHandle? c
  if 1 < handle.length && !isClosedHandle handle then none
  let start := afterHandle.skipWhile isSpaceOrTab
  if !startsHandleValue afterHandle start then none
  let (uri, length) ← readUri? e .handleValue start.rest
  let after := start.skip length
  if uri.isEmpty || !after.gapAt 0 then none
  return (.tagHandle (String.ofList handle) (String.ofList uri), after)

/-- What follows the name of a directive that is not known. -/
def readUnknown? (c : Cursor e) : Option (Token × Cursor e) :=
  if e = .v11 then none else some (.tagHandle "" "", c.skipWhile (!isBreak e ·))

/-- A directive, from its percent sign, and the place on the next line. -/
def readDirective? (c : Cursor e) : Option (Token × Cursor e) := do
  let (name, afterName) := (c.skip 1).takeWhile isNameChar
  if name.isEmpty || !afterName.gapAt 0 then none
  let start := afterName.skipWhile isSpaceOrTab
  let (token, after) ←
    if name = "YAML".toList then readVersion? start
    else if name = "TAG".toList then readTagHandle? start
    else readUnknown? start
  let lineEnd ← after.skipInline?
  if lineEnd.atLineEnd then some (token, lineEnd.skipBreak) else none

end MetadataFilter.Yaml
