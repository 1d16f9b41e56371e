import MetadataFilter.Yaml.Cursor

/-!
# Gaps between the words of a scalar

A gap is blanks and line ends. Scalars over several lines are folded: `Gap.folded` is what a gap
contributes to the text. Tabs cannot indent, so they are refused before a column that the lines of a
scalar have to reach.
-/

namespace MetadataFilter.Yaml

/-- Blanks and line ends between two words of a scalar: the blanks before the first line end, the
line ends, and the place after them. -/
structure Gap (e : Edition) where
  spaces : List Char := []
  breaks : List Char := []
  cursor : Cursor e

namespace Gap

variable {e : Edition}

/-- Reads on through blanks and line ends. A tab before `minColumn` of a new line is refused; with
`onBlankLines` it may stand there if the line holds nothing else, a comment apart. -/
def readOn? (onBlankLines : Bool) (minColumn : Nat) (gap : Gap e) : Option (Gap e) :=
  match _h : gap.cursor.rest with
  | [] => some gap
  | x :: _ =>
    if isSpaceOrTab x then
      if gap.breaks.isEmpty then
        readOn? onBlankLines minColumn
          { gap with spaces := gap.spaces ++ [x], cursor := gap.cursor.skip 1 }
      else if x = '\t' ∧ gap.cursor.column < minColumn then
        let place := ((gap.cursor.skip 1).skipWhile isSpaceOrTab).skipComment
        if onBlankLines ∧ place.atLineEnd then
          readOn? onBlankLines minColumn { gap with cursor := place }
        else none
      else readOn? onBlankLines minColumn { gap with cursor := gap.cursor.skip 1 }
    else
      match _h' : gap.cursor.readBreak? with
      | some (y, after) =>
        readOn? onBlankLines minColumn { gap with breaks := gap.breaks ++ [y], cursor := after }
      | none => some gap
termination_by gap.cursor.rest.length
decreasing_by
  · exact Cursor.length_skip_lt (by simp_all) (by decide)
  · exact Nat.lt_of_le_of_lt
      (Nat.le_trans (Cursor.length_skipComment_le _) (Cursor.length_skipWhile_le _ _))
      (Cursor.length_skip_lt (by simp_all) (by decide))
  · exact Cursor.length_skip_lt (by simp_all) (by decide)
  · exact Cursor.length_readBreak?_lt _h'

theorem length_readOn?_le {onBlankLines : Bool} {minColumn : Nat} {gap after : Gap e}
    (h : gap.readOn? onBlankLines minColumn = some after) :
    after.cursor.rest.length ≤ gap.cursor.rest.length := by
  fun_induction Gap.readOn? onBlankLines minColumn gap with
  | case1 gap _ => simp_all
  | case2 gap x _ _ _ _ ih => exact Nat.le_trans (ih h) (Cursor.length_skip_le gap.cursor 1)
  | case3 gap x _ _ _ _ _ place _ ih =>
    exact Nat.le_trans (ih h) (Nat.le_trans (Cursor.length_skipComment_le _)
      (Nat.le_trans (Cursor.length_skipWhile_le _ _) (Cursor.length_skip_le gap.cursor 1)))
  | case4 => contradiction
  | case5 gap x _ _ _ _ _ ih => exact Nat.le_trans (ih h) (Cursor.length_skip_le gap.cursor 1)
  | case6 gap x _ _ _ y next hb ih =>
    exact Nat.le_trans (ih h) (Nat.le_of_lt (Cursor.length_readBreak?_lt hb))
  | case7 => simp_all

/-- The gap at a place. -/
def read? (onBlankLines : Bool) (minColumn : Nat) (c : Cursor e) : Option (Gap e) :=
  readOn? onBlankLines minColumn { cursor := c }

theorem length_read?_lt {onBlankLines : Bool} {minColumn : Nat} {c : Cursor e} {x : Char}
    {more : List Char} {gap : Gap e} (h : c.rest = x :: more) (hx : isGap e x = true)
    (hg : Gap.read? onBlankLines minColumn c = some gap) :
    gap.cursor.rest.length < c.rest.length := by
  unfold Gap.read? Gap.readOn? at hg
  have hne : c.rest ≠ [] := by simp [h]
  split at hg
  · simp_all
  · rename_i y _ heq
    simp only [h] at heq
    obtain ⟨rfl, rfl⟩ := List.cons.inj heq
    by_cases hs : isSpaceOrTab x = true
    · simp only [hs, ↓reduceIte, List.isEmpty_nil] at hg
      exact Nat.lt_of_le_of_lt (Gap.length_readOn?_le hg) (Cursor.length_skip_lt hne (by decide))
    · have hb : isBreak e x = true := by simpa [isGap, hs] using hx
      obtain ⟨y, after, he⟩ := Cursor.exists_readBreak? h hb
      simp only [hs, Bool.false_eq_true, ↓reduceIte] at hg
      split at hg
      · rename_i hb'
        exact Nat.lt_of_le_of_lt (Gap.length_readOn?_le hg) (Cursor.length_readBreak?_lt hb')
      · rename_i hb'
        simp [he] at hb'

/-- What a gap contributes to a folded scalar: its blanks if it holds no line end, a space for a
single line feed, and otherwise the line ends after the first. A first line end that is not a line
feed stays. -/
def folded (gap : Gap e) : List Char :=
  match gap.breaks with
  | [] => gap.spaces
  | ['\n'] => [' ']
  | '\n' :: more => more
  | breaks => breaks

end Gap

end MetadataFilter.Yaml
