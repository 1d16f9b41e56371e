import MetadataFilter.Yaml.Gap

/-!
# Plain scalars

A plain scalar is words with gaps between them. A colon before a gap ends it, a number sign after a
gap starts a comment, and inside brackets the characters of collections end it too. Outside brackets
its lines are indented more than the collection around it.

Inside brackets 1.1 refuses a colon right before one of their characters, where 1.2 ends the scalar;
and 1.2 refuses a word that is a hyphen right before one of them.
-/

namespace MetadataFilter.Yaml

variable {e : Edition}

/-- The word at the front of a text. -/
def plainWord? (e : Edition) (inFlow : Bool) : List Char → Option (List Char)
  | [] => some []
  | x :: rest =>
    let next := rest.head?
    if isGap e x then some []
    else if e = .v11 ∧ inFlow ∧ x = ':' ∧ next.any (fun y => isFlowIndicator y || y == '?') then
      none
    else if x == ':' && (next.all (isGap e) || (inFlow && next.any isFlowIndicator)) then some []
    else if inFlow && isFlowIndicator x then some []
    else (plainWord? e inFlow rest).map (x :: ·)

/-- Whether a word that cannot stand inside brackets starts here. -/
def startsRefusedWord (inFlow : Bool) (c : Cursor e) : Bool :=
  e == .v12 && inFlow && c.sees '-' && (c.peekAt? 1).any isFlowIndicator

/-- The words from `c` on, with the text of the gap before them, and the place after them and the
gap behind them. -/
def readWords? (inFlow : Bool) (minColumn : Nat) (gapText : List Char) (c : Cursor e) :
    Option (List Char × Cursor e) :=
  if c.atDocumentMarker || c.sees '#' then some ([], c)
  else if startsRefusedWord inFlow c then none
  else
    match plainWord? e inFlow c.rest with
    | none => none
    | some word =>
      let text := if word.isEmpty then [] else gapText ++ word
      let after := c.skip word.length
      match _h : after.rest with
      | [] => some (text, after)
      | x :: _ =>
        if _hx : isGap e x then
          match _hg : Gap.read? (e = .v12) minColumn after with
          | none => none
          | some gap =>
            if !inFlow && gap.cursor.column < minColumn then some (text, gap.cursor)
            else
              (readWords? inFlow minColumn gap.folded gap.cursor).map fun (more, place) =>
                (text ++ more, place)
        else some (text, after)
termination_by c.rest.length
decreasing_by
  exact Nat.lt_of_lt_of_le (Gap.length_read?_lt _h _hx _hg) (Cursor.length_skip_le c word.length)

/-- A plain scalar whose lines start at `minColumn` or behind it. -/
def readPlain? (inFlow : Bool) (minColumn : Nat) (c : Cursor e) : Option (List Char × Cursor e) :=
  readWords? inFlow minColumn [] c

end MetadataFilter.Yaml
