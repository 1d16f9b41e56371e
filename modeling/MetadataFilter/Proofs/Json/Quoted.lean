import Mathlib.Tactic.SplitIfs
import MetadataFilter.Json.Reader
import MetadataFilter.Json.Writer

/-!
# Strings read back from JSON

A written character is read as that character, whatever follows it (`unquote?_escapeChar`): as it
is, by the letter of its escape, or by its four hexadecimal digits. So a written string is read up
to the quote behind it and no further (`unquote?_quote`), and nothing that is written for it is a
control character (`not_control_of_mem_quote`).
-/

namespace MetadataFilter

/-- The reader takes the value from the front of the text and leaves the rest. -/
def Text.Reads {α : Type} {text : List Char} (outcome : Option (Text.Step α text)) (value : α)
    (rest : List Char) : Prop :=
  ∃ step, outcome = some step ∧ step.value = value ∧ step.rest = rest

namespace Json

open Text

/-! ## Escapes -/

theorem hexDigit?_hexDigit (n : Nat) : hexDigit? (hexDigit n) = some (n % 16) := by
  have digits : ∀ d < 16, hexDigit? (Nat.digitChar d) = some d := by decide
  exact digits (n % 16) (Nat.mod_lt n (by decide))

theorem codeUnit?_control {c : Char} (control : c.toNat < 0x20) (rest : List Char) :
    Reads (codeUnit? ('0' :: '0' :: hexDigit (c.toNat / 16) :: hexDigit c.toNat :: rest))
      c.toNat rest := by
  have zero : hexDigit? '0' = some 0 := by decide
  simp only [codeUnit?, zero, hexDigit?_hexDigit]
  refine ⟨_, rfl, ?_, rfl⟩
  simp only
  omega

theorem escape?_control {c : Char} (control : c.toNat < 0x20) (rest : List Char) :
    Reads (escape? ('u' :: '0' :: '0' :: hexDigit (c.toNat / 16) :: hexDigit c.toNat :: rest))
      c rest := by
  obtain ⟨unit, read, value, after⟩ := codeUnit?_control control rest
  have notSurrogate : ¬(0xD800 ≤ unit.value ∧ unit.value < 0xDC00) := by omega
  have notLow : ¬(0xDC00 ≤ unit.value ∧ unit.value < 0xE000) := by omega
  simp only [escape?, read, if_neg notSurrogate, if_neg notLow]
  exact ⟨_, rfl, by rw [value, Char.ofNat_toNat], after⟩

theorem escape?_short {letter c : Char} (h : shortEscape? letter = some c) (rest : List Char) :
    Reads (escape? (letter :: rest)) c rest := by
  have notUnit : letter ≠ 'u' := by
    rintro rfl
    cases h
  rw [escape?, h]
  · exact ⟨_, rfl, rfl, rfl⟩
  · exact notUnit

/-- A character is written by the letter of its escape, by its four hexadecimal digits, or as it
is. -/
theorem escapeChar_cases (c : Char) :
    (∃ letter, 0x20 ≤ letter.toNat ∧ shortEscape? letter = some c ∧
      escapeChar c = ['\\', letter]) ∨
    (c.toNat < 0x20 ∧
      escapeChar c = '\\' :: 'u' :: '0' :: '0' :: [hexDigit (c.toNat / 16), hexDigit c.toNat]) ∨
    (c ≠ '"' ∧ c ≠ '\\' ∧ 0x20 ≤ c.toNat ∧ escapeChar c = [c]) := by
  unfold escapeChar
  split_ifs with quote backslash backspace tab newline formFeed back control
  · exact .inl ⟨'"', by decide, by rw [quote]; rfl, rfl⟩
  · exact .inl ⟨'\\', by decide, by rw [backslash]; rfl, rfl⟩
  · exact .inl ⟨'b', by decide, by rw [backspace]; rfl, rfl⟩
  · exact .inl ⟨'t', by decide, by rw [tab]; rfl, rfl⟩
  · exact .inl ⟨'n', by decide, by rw [newline]; rfl, rfl⟩
  · exact .inl ⟨'f', by decide, by rw [formFeed]; rfl, rfl⟩
  · exact .inl ⟨'r', by decide, by rw [back]; rfl, rfl⟩
  · exact .inr (.inl ⟨control, rfl⟩)
  · exact .inr (.inr ⟨quote, backslash, Nat.not_lt.1 control, rfl⟩)

/-! ## Strings -/

section

variable {c : Char} {letters after text rest : List Char}

theorem unquote?_escaped (escaped : Reads (escape? letters) c after)
    (h : Reads (unquote? after) text rest) :
    Reads (unquote? ('\\' :: letters)) (c :: text) rest := by
  obtain ⟨letter, read, rfl, rfl⟩ := escaped
  obtain ⟨others, read', rfl, rfl⟩ := h
  rw [unquote?, if_neg (by decide), if_pos rfl, read]
  simp only
  rw [read']
  exact ⟨_, rfl, rfl, rfl⟩

theorem unquote?_raw (notQuote : c ≠ '"') (notBackslash : c ≠ '\\') (raw : 0x20 ≤ c.toNat)
    (h : Reads (unquote? after) text rest) : Reads (unquote? (c :: after)) (c :: text) rest := by
  obtain ⟨others, read, rfl, rfl⟩ := h
  rw [unquote?, if_neg notQuote, if_neg notBackslash, if_neg (Nat.not_lt.2 raw), read]
  exact ⟨_, rfl, rfl, rfl⟩

/-- A written character is read as that character. -/
theorem unquote?_escapeChar (c : Char) (h : Reads (unquote? after) text rest) :
    Reads (unquote? (escapeChar c ++ after)) (c :: text) rest := by
  rcases escapeChar_cases c with ⟨letter, -, named, written⟩ | ⟨control, written⟩ |
    ⟨notQuote, notBackslash, raw, written⟩
  · rw [written]
    exact unquote?_escaped (escape?_short named after) h
  · rw [written]
    exact unquote?_escaped (escape?_control control after) h
  · rw [written]
    exact unquote?_raw notQuote notBackslash raw h

end

/-- **A written string is read up to its closing quote.** -/
theorem unquote?_quote (text rest : List Char) :
    Reads (unquote? (text.flatMap escapeChar ++ '"' :: rest)) text rest := by
  induction text with
  | nil =>
    rw [List.flatMap_nil, List.nil_append, unquote?, if_pos rfl]
    exact ⟨_, rfl, rfl, rfl⟩
  | cons c text ih =>
    rw [List.flatMap_cons, List.append_assoc]
    exact unquote?_escapeChar c ih

/-! ## Control characters -/

theorem not_control_hexDigit (n : Nat) : 0x20 ≤ (hexDigit n).toNat := by
  have digits : ∀ d < 16, 0x20 ≤ (Nat.digitChar d).toNat := by decide
  exact digits (n % 16) (Nat.mod_lt n (by decide))

theorem not_control_of_mem_escapeChar {c d : Char} (h : d ∈ escapeChar c) : 0x20 ≤ d.toNat := by
  rcases escapeChar_cases c with ⟨letter, raw, -, written⟩ | ⟨-, written⟩ | ⟨-, -, raw, written⟩
  · rw [written] at h
    rcases List.mem_cons.1 h with rfl | h
    · decide
    · exact List.mem_singleton.1 h ▸ raw
  · rw [written] at h
    simp only [List.mem_cons, List.not_mem_nil, or_false] at h
    rcases h with rfl | rfl | rfl | rfl | rfl | rfl
    iterate 4 decide
    iterate 2 exact not_control_hexDigit _
  · rw [written, List.mem_singleton] at h
    exact h ▸ raw

theorem not_control_of_mem_quote {text : List Char} {d : Char} (h : d ∈ quote text) :
    0x20 ≤ d.toNat := by
  simp only [quote, List.cons_append, List.mem_cons, List.mem_append, List.mem_flatMap,
    List.not_mem_nil, or_false] at h
  rcases h with rfl | ⟨c, -, mem⟩ | rfl
  · decide
  · exact not_control_of_mem_escapeChar mem
  · decide

end Json

end MetadataFilter
