import MetadataFilter.Json.Reader
import MetadataFilter.Text.Blank
import MetadataFilter.Text.Lines

/-!
# Batches

A batch holds one JSON document on each line. Blank lines are no entries, but they count. Blanks
around a document do not matter, so a carriage return before the line feed does not either.
-/

namespace MetadataFilter

/-- A line of a batch that is not blank: its number, from 1, and its document if it is JSON. -/
structure BatchEntry where
  line : Nat
  document : Option Json

namespace BatchEntry

/-- The entry of a line, if it is not blank. -/
def ofLine? (number : Nat) (line : List Char) : Option BatchEntry :=
  let text := Text.trim line
  if text.isEmpty then none else some ⟨number, Json.ofText? text⟩

/-- The entries of lines, the first of which has the given number. -/
def ofLines (number : Nat) : List (List Char) → List BatchEntry
  | [] => []
  | line :: rest => (ofLine? number line).toList ++ ofLines (number + 1) rest

end BatchEntry

def readBatch (text : List Char) : List BatchEntry := BatchEntry.ofLines 1 (Text.lines text)

end MetadataFilter
