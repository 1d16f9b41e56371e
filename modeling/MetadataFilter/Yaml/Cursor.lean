import MetadataFilter.Yaml.Edition

/-!
# A place in a YAML text

A `Cursor` is the rest of a text with its line and column. Layout decides much in YAML, so all
reading goes through cursors. Lines end at a line feed, a carriage return or both together, and in
edition 1.1 also at one of the Unicode line ends; a line end is read as a line feed, except that the
line and paragraph separators stay.

Every read from a cursor leaves a rest that is no longer (`Cursor.length_skip_le` and its
companions), so loops end.
-/

namespace MetadataFilter.Yaml

structure Cursor (e : Edition) where
  rest : List Char
  /-- How far it is from the start of the text. -/
  index : Nat := 0
  line : Nat := 0
  /-- The number of characters before it on its line. -/
  column : Nat := 0
  /-- Whether only blanks are before it on its line. -/
  leading : Bool := true

namespace Cursor

variable {e : Edition}

def peek? (c : Cursor e) : Option Char := c.rest.head?

/-- The character after the next `n`. -/
def peekAt? (c : Cursor e) (n : Nat) : Option Char := c.rest[n]?

def sees (c : Cursor e) (x : Char) : Bool := c.peek? == some x

/-- Whether the character after the next `n` is a blank, a line end or the end of the text. -/
def gapAt (c : Cursor e) (n : Nat) : Bool :=
  match c.peekAt? n with
  | none => true
  | some x => isGap e x

def width (c : Cursor e) (n : Nat) : Nat :=
  (c.rest.take n).foldr (fun x total => e.width x + total) 0

/-- Past `n` characters of one line. -/
def skip (c : Cursor e) (n : Nat) : Cursor e where
  rest := c.rest.drop n
  index := c.index + c.width n
  line := c.line
  column := c.column + n
  leading := c.leading && (c.rest.take n).all isSpaceOrTab

/-- The next characters of this line that satisfy `p`, and the place after them. -/
def takeWhile (p : Char → Bool) (c : Cursor e) : List Char × Cursor e :=
  let taken := c.rest.takeWhile p
  (taken, c.skip taken.length)

def skipWhile (p : Char → Bool) (c : Cursor e) : Cursor e := (c.takeWhile p).2

/-- The place at the start of the next line, when the line ends after `n` more characters. -/
def nextLine (c : Cursor e) (n : Nat) : Cursor e where
  rest := c.rest.drop n
  index := c.index + c.width n
  line := c.line + 1
  column := 0

/-- A line end, as the character it is read as. -/
def readBreak? (c : Cursor e) : Option (Char × Cursor e) :=
  match c.rest with
  | '\r' :: '\n' :: _ => some ('\n', c.nextLine 2)
  | x :: _ =>
    if isBreak e x then
      some (if x = '\u2028' ∨ x = '\u2029' then x else '\n', c.nextLine 1)
    else none
  | [] => none

def skipBreak (c : Cursor e) : Cursor e :=
  match c.readBreak? with
  | some (_, after) => after
  | none => c

def atLineEnd (c : Cursor e) : Bool :=
  match c.peek? with
  | none => true
  | some x => isBreak e x

/-- Past a comment, up to the end of its line. -/
def skipComment (c : Cursor e) : Cursor e :=
  if c.sees '#' then c.skipWhile (!isBreak e ·) else c

/-- Past blanks and a comment. In 1.2 there is a blank before a comment. -/
def skipInline? (c : Cursor e) : Option (Cursor e) :=
  let after := c.skipWhile isSpaceOrTab
  if e = .v12 ∧ after.sees '#' ∧ after.column = c.column then none else some after.skipComment

/-- Three equal marks at the start of a line, with a gap behind them: the start (`-`) or the end
(`.`) of a document. -/
def atMarker (c : Cursor e) (mark : Char) : Bool :=
  c.column == 0 && c.rest.take 3 == [mark, mark, mark] && c.gapAt 3

def atDocumentMarker (c : Cursor e) : Bool := c.atMarker '-' || c.atMarker '.'

theorem length_skip_le (c : Cursor e) (n : Nat) : (c.skip n).rest.length ≤ c.rest.length := by
  simp [skip]

theorem length_skipWhile_le (p : Char → Bool) (c : Cursor e) :
    (c.skipWhile p).rest.length ≤ c.rest.length :=
  length_skip_le c _

theorem length_skipComment_le (c : Cursor e) : c.skipComment.rest.length ≤ c.rest.length := by
  unfold skipComment
  split
  · exact length_skipWhile_le _ c
  · exact Nat.le_refl _

theorem length_skip_lt {c : Cursor e} {n : Nat} (h : c.rest ≠ []) (hn : 0 < n) :
    (c.skip n).rest.length < c.rest.length := by
  have := List.length_pos_iff.2 h
  simp only [skip, List.length_drop]
  omega

theorem length_nextLine_lt {c : Cursor e} {n : Nat} (h : c.rest ≠ []) (hn : 0 < n) :
    (c.nextLine n).rest.length < c.rest.length := by
  have := List.length_pos_iff.2 h
  simp only [nextLine, List.length_drop]
  omega

theorem length_readBreak?_lt {c after : Cursor e} {x : Char} (h : c.readBreak? = some (x, after)) :
    after.rest.length < c.rest.length := by
  unfold readBreak? at h
  split at h
  · simp only [Option.some.injEq, Prod.mk.injEq] at h
    exact h.2 ▸ length_nextLine_lt (by simp_all) (by decide)
  · split at h
    · simp only [Option.some.injEq, Prod.mk.injEq] at h
      exact h.2 ▸ length_nextLine_lt (by simp_all) (by decide)
    · contradiction
  · contradiction

theorem length_skipBreak_le (c : Cursor e) : c.skipBreak.rest.length ≤ c.rest.length := by
  unfold skipBreak
  split
  · rename_i h
    exact Nat.le_of_lt (length_readBreak?_lt h)
  · exact Nat.le_refl _

theorem exists_readBreak? {c : Cursor e} {x : Char} {more : List Char} (h : c.rest = x :: more)
    (hx : isBreak e x = true) : ∃ y after, c.readBreak? = some (y, after) := by
  unfold readBreak?
  split
  · exact ⟨_, _, rfl⟩
  · rename_i heq
    rw [h] at heq
    obtain ⟨rfl, rfl⟩ := List.cons.inj heq
    simp [hx]
  · simp_all

end Cursor

end MetadataFilter.Yaml
