/-!
# Reading at the front of a text

A reader that recognizes something at the front of a text returns a `Step`: the value, the rest of
the text, and the fact that the rest is shorter. Loops over readers end because of it.
-/

namespace MetadataFilter.Text

/-- A value read at the front of `text`, and the shorter rest. -/
structure Step (α : Type) (text : List Char) where
  value : α
  rest : List Char
  shorter : rest.length < text.length

/-- The step with another value. -/
def Step.map {α β : Type} {text : List Char} (f : α → β) (step : Step α text) : Step β text :=
  ⟨f step.value, step.rest, step.shorter⟩

/-- The step seen from a text that is at least as long. -/
def Step.widen {α : Type} {text longer : List Char} (step : Step α text)
    (h : text.length ≤ longer.length) : Step α longer :=
  ⟨step.value, step.rest, Nat.lt_of_lt_of_le step.shorter h⟩

theorem length_dropWhile_le {α : Type} (p : α → Bool) (text : List α) :
    (text.dropWhile p).length ≤ text.length :=
  (List.dropWhile_sublist p).length_le

end MetadataFilter.Text
