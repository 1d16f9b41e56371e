import MetadataFilter.Yaml.Cursor

/-!
# Block scalars

A block scalar holds the lines below its header that are indented alike. A literal one keeps its
line ends, a folded one joins lines that do not start with a blank. Its header may give the
indentation and what becomes of the line ends at its end.

Edition 1.1 refuses tabs in indentation, 1.2 only one that starts the first line. Where the text
ends inside a block scalar, 1.2 reads a line end.
-/

namespace MetadataFilter.Yaml

variable {e : Edition}

/-- What becomes of the line ends at the end of a block scalar. -/
inductive Chomping
  /-- One is kept. -/
  | clip
  /-- None is kept. -/
  | strip
  /-- All are kept. -/
  | keep
  deriving DecidableEq

def chomping? : Option Char → Option Chomping
  | some '+' => some .keep
  | some '-' => some .strip
  | _ => none

/-- The indentation that a character of the header gives. -/
def indentDigit? (c : Option Char) : Option Nat :=
  match c with
  | some d => if d.isDigit then some (d.toNat - '0'.toNat) else none
  | none => none

/-- The header behind its indicator, in either order: the chomping, the indentation if it is given,
and the number of characters. An indentation of zero is refused. -/
def blockHeader? (c : Cursor e) : Option (Chomping × Option Nat × Nat) :=
  let first := c.peekAt? 0
  let second := c.peekAt? 1
  let found :=
    match chomping? first, indentDigit? first with
    | some chomping, _ =>
      match indentDigit? second with
      | some n => (chomping, some n, 2)
      | none => (chomping, none, 1)
    | none, some n =>
      match chomping? second with
      | some chomping => (chomping, some n, 2)
      | none => (.clip, some n, 1)
    | none, none => (.clip, none, 0)
  if found.2.1 = some 0 then none else some found

/-- The blank lines before a line of content. -/
structure BlankLines (e : Edition) where
  /-- The largest column that indentation reached. -/
  widest : Nat
  breaks : List Char
  cursor : Cursor e

/-- Reads on through indentation and line ends. Indentation goes up to column `indent`, or as far as
there are spaces while that is not known yet. -/
def BlankLines.readOn? (indent : Option Nat) (lines : BlankLines e) : Option (BlankLines e) :=
  let spaces := (lines.cursor.rest.takeWhile (· == ' ')).length
  let place := lines.cursor.skip (match indent with
    | none => spaces
    | some indent => min spaces (indent - lines.cursor.column))
  let widest := max lines.widest place.column
  if e = .v11 ∧ indent.all (place.column < ·) ∧ place.sees '\t' then none
  else
    match _h : place.readBreak? with
    | some (x, after) => readOn? indent ⟨widest, lines.breaks ++ [x], after⟩
    | none => some ⟨widest, lines.breaks, place⟩
termination_by lines.cursor.rest.length
decreasing_by
  exact Nat.lt_of_lt_of_le (Cursor.length_readBreak?_lt _h) (Cursor.length_skip_le _ _)

theorem BlankLines.length_readOn?_le {indent : Option Nat} {lines after : BlankLines e}
    (h : lines.readOn? indent = some after) :
    after.cursor.rest.length ≤ lines.cursor.rest.length := by
  fun_induction BlankLines.readOn? indent lines with
  | case1 => contradiction
  | case2 lines spaces place widest _ x next hb ih =>
    exact Nat.le_trans (ih h) (Nat.le_trans (Nat.le_of_lt (Cursor.length_readBreak?_lt hb))
      (Cursor.length_skip_le _ _))
  | case3 lines spaces place =>
    simp only [Option.some.injEq] at h
    rw [← h]
    exact Cursor.length_skip_le _ _

/-- A block scalar so far: its text, the line end after its last line, the line ends of the blank
lines after that, and whether its last line starts with a blank. -/
structure BlockText where
  text : List Char
  lineEnd : List Char
  blankEnds : List Char
  startsBlank : Bool

/-- The text with its next line. Two folded lines are joined by a space, or by the blank lines
between them, unless one of them starts with a blank. -/
def BlockText.addLine (literal : Bool) (block : BlockText) (line : List Char) : List Char :=
  let startsBlank := line.head?.any isSpaceOrTab
  let join :=
    if !literal && block.lineEnd == ['\n'] && !block.startsBlank && !startsBlank then
      if block.blankEnds.isEmpty then [' '] else []
    else block.lineEnd
  block.text ++ join ++ block.blankEnds ++ line

/-- The lines of content from `c` on that start at column `indent`. -/
def readBlockLines? (literal : Bool) (indent : Nat) (block : BlockText) (c : Cursor e) :
    Option (BlockText × Cursor e) :=
  match _h : c.rest with
  | [] => some (block, c)
  | x :: more =>
    if c.column = indent then
      let line := x :: more.takeWhile (!isBreak e ·)
      let place := c.skip line.length
      let lineEnd := (place.readBreak?.map Prod.fst).toList
      match _hb : BlankLines.readOn? (some indent) ⟨0, [], place.skipBreak⟩ with
      | none => none
      | some lines =>
        readBlockLines? literal indent
          ⟨block.addLine literal line, lineEnd, lines.breaks, isSpaceOrTab x⟩ lines.cursor
    else some (block, c)
termination_by c.rest.length
decreasing_by
  have hl := BlankLines.length_readOn?_le _hb
  have hs := Cursor.length_skip_lt (c := c) (n := line.length) (by simp_all) (by simp [line])
  exact Nat.lt_of_le_of_lt (Nat.le_trans hl (Cursor.length_skipBreak_le _)) hs

/-- The text with what is kept of the line ends behind it. -/
def BlockText.ended (chomping : Chomping) (block : BlockText) : List Char :=
  match chomping with
  | .strip => block.text
  | .clip => block.text ++ block.lineEnd
  | .keep => block.text ++ block.lineEnd ++ block.blankEnds

/-- The text where the text of the document ends before any content: of the line ends below the
header all that are to be kept, or else that of the header. -/
def emptyBlock (chomping : Chomping) (headerEnd blankEnds : List Char) : List Char :=
  match chomping with
  | .strip => []
  | .clip => headerEnd
  | .keep => if blankEnds.isEmpty then headerEnd else blankEnds

/-- The line end that 1.2 reads where the text ends on a line of a block scalar. -/
def missingLineEnd (indent : Nat) (c : Cursor e) : List Char :=
  if e = .v12 ∧ c.rest.isEmpty ∧ max indent 1 ≤ c.column then ['\n'] else []

/-- A block scalar inside a collection at column `parent` (none at the root), from behind its
indicator: its text and the place after it. -/
def readBlock? (literal : Bool) (parent : Option Nat) (c : Cursor e) :
    Option (List Char × Cursor e) := do
  let (chomping, increment, length) ← blockHeader? c
  let headerEnd ← (c.skip length).skipInline?
  if !headerEnd.atLineEnd then none
  let start := headerEnd.skipBreak
  if e = .v12 ∧ start.sees '\t' then none
  let given := increment.map (parent.getD 0 + ·)
  let lines ← BlankLines.readOn? given ⟨0, [], start⟩
  let place := lines.cursor
  let least := match parent with
    | none => 1
    | some column => column + 1
  let indent := given.getD (max lines.widest least)
  if e = .v12 ∧ place.rest.isEmpty then
    return (emptyBlock chomping (headerEnd.readBreak?.map Prod.fst).toList lines.breaks, place)
  if e = .v12 ∧ place.column < indent ∧ parent.all (· < place.column) then none
  let (block, after) ← readBlockLines? literal indent ⟨[], [], lines.breaks, false⟩ place
  let block := { block with lineEnd := block.lineEnd ++ missingLineEnd indent after }
  return (block.ended chomping, after)

end MetadataFilter.Yaml
