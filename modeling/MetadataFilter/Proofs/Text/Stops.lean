/-!
# Where a run of characters stops

A reader takes characters of one kind as long as they come. What is written in such characters is
taken whole, and nothing more, if what is behind it does not begin with another one (`Stops`).
-/

namespace MetadataFilter.Text

variable {p : Char → Bool} {text rest : List Char}

/-- The text does not begin with a character of the kind. -/
def Stops (p : Char → Bool) (text : List Char) : Prop := ∀ c ∈ text.head?, p c = false

theorem stops_nil (p : Char → Bool) : Stops p [] := nofun

theorem stops_cons {c : Char} (h : p c = false) (rest : List Char) : Stops p (c :: rest) := by
  rintro d ⟨⟩
  exact h

theorem takeWhile_append_stops (inside : ∀ c ∈ text, p c = true) (stops : Stops p rest) :
    (text ++ rest).takeWhile p = text := by
  rw [List.takeWhile_append_of_pos inside]
  cases rest with
  | nil => exact List.append_nil text
  | cons c rest =>
    have stop : ¬p c = true := by simp [stops c rfl]
    rw [List.takeWhile_cons_of_neg stop, List.append_nil]

theorem dropWhile_append_stops (inside : ∀ c ∈ text, p c = true) (stops : Stops p rest) :
    (text ++ rest).dropWhile p = rest := by
  rw [List.dropWhile_append_of_pos inside]
  cases rest with
  | nil => rfl
  | cons c rest =>
    have stop : ¬p c = true := by simp [stops c rfl]
    rw [List.dropWhile_cons_of_neg stop]

/-- A text is cut in one way at its first character of a kind. -/
theorem cut_unique {cut : Char} {other after : List Char} (whole : cut ∉ text)
    (whole' : cut ∉ other) (h : other ++ cut :: after = text ++ cut :: rest) :
    other = text ∧ after = rest := by
  have upTo {text : List Char} (whole : cut ∉ text) (rest : List Char) :
      (text ++ cut :: rest).takeWhile (· != cut) = text := by
    apply takeWhile_append_stops
    · exact fun c mem => bne_iff_ne.2 fun same => whole (same ▸ mem)
    · exact stops_cons (by simp) rest
  obtain rfl : other = text := by rw [← upTo whole' after, h, upTo whole rest]
  exact ⟨rfl, (List.cons.inj (List.append_cancel_left h)).2⟩

end MetadataFilter.Text
