import Mathlib.Data.List.TakeWhile
import MetadataFilter.Number.Layout
import MetadataFilter.Proofs.Number.Shortest

/-!
# Positional decimals

`positionalText` lays a decimal out as digits, a point and digits (`exists_positional`), and this
text is read as a decimal of the same value (`Decimal.ofText?_digits`). With a sign in front it is
read by `Binary64.ofText?` as the binary64 number that the decimal is nearest to
(`Binary64.ofText?_positionalText`).
-/

namespace MetadataFilter

theorem isDigit_of_mem_toDigits {n : Nat} {c : Char} (h : c ∈ Nat.toDigits 10 n) :
    c.isDigit = true :=
  Nat.isDigit_of_mem_toDigits (by norm_num) (by norm_num) h

theorem toDigits_injective {m n : Nat} (h : Nat.toDigits 10 m = Nat.toDigits 10 n) : m = n := by
  rw [← Nat.ofDigitChars_ten_toDigits (n := m), h, Nat.ofDigitChars_ten_toDigits]

theorem getLast?_toDigits_ne_zero {n : Nat} (h : n % 10 ≠ 0) :
    (Nat.toDigits 10 n).getLast? ≠ some '0' := by
  have nonzero : ∀ d < 10, d ≠ 0 → Nat.digitChar d ≠ '0' := by decide
  rw [Nat.toDigits_eq_if (by norm_num)]
  split
  · rename_i small
    rw [Nat.mod_eq_of_lt small] at h
    exact fun zero => nonzero n small h (Option.some.inj zero)
  · rw [List.getLast?_concat]
    exact fun zero => nonzero _ (Nat.mod_lt n (by norm_num)) h (Option.some.inj zero)

/-- `text` is `whole.fraction`: digits on either side of a point, which denote the decimal. -/
structure Positional (coefficient : Nat) (power : Int) (text whole fraction : List Char) :
    Prop where
  text_eq : text = whole ++ '.' :: fraction
  whole_ne_nil : whole ≠ []
  fraction_ne_nil : fraction ≠ []
  whole_digits : ∀ c ∈ whole, c.isDigit = true
  fraction_digits : ∀ c ∈ fraction, c.isDigit = true
  value_eq : decimalValue (Nat.ofDigitChars 10 (whole ++ fraction) 0) (-fraction.length) =
    decimalValue coefficient power

/-! ## The three layouts -/

theorem digit_of_mem_zeros {zeros : Nat} {c : Char} (h : c ∈ List.replicate zeros '0') :
    c.isDigit = true := by
  rw [List.eq_of_mem_replicate h]
  rfl

/-- A power of ten that is not negative puts zeros before the point and one behind it. -/
theorem positional_zeros (coefficient zeros : Nat) :
    Positional coefficient zeros
      (Nat.toDigits 10 coefficient ++ List.replicate zeros '0' ++ ".0".toList)
      (Nat.toDigits 10 coefficient ++ List.replicate zeros '0') ['0'] where
  text_eq := rfl
  whole_ne_nil := by simp
  fraction_ne_nil := by simp
  whole_digits c hc := by
    rcases List.mem_append.1 hc with hc | hc
    · exact isDigit_of_mem_toDigits hc
    · exact digit_of_mem_zeros hc
  fraction_digits c hc := digit_of_mem_zeros (show _ ∈ List.replicate 1 _ from hc)
  value_eq := by
    have digits : Nat.ofDigitChars 10
        (Nat.toDigits 10 coefficient ++ List.replicate zeros '0' ++ ['0']) 0 =
          10 * (10 ^ zeros * coefficient) := by
      simp [Nat.ofDigitChars_append, Nat.ofDigitChars_cons]
    rw [digits, decimalValue, decimalValue]
    push_cast
    simp only [List.length_singleton, Nat.cast_one, zpow_neg_one, zpow_natCast]
    field_simp

/-- A point inside the digits. -/
theorem positional_inside {coefficient places : Nat}
    (h : places < (Nat.toDigits 10 coefficient).length) (hp : 0 < places) :
    let digits := Nat.toDigits 10 coefficient
    Positional coefficient (-places)
      (digits.take (digits.length - places) ++ '.' :: digits.drop (digits.length - places))
      (digits.take (digits.length - places)) (digits.drop (digits.length - places)) where
  text_eq := rfl
  whole_ne_nil := List.ne_nil_of_length_pos (by rw [List.length_take]; omega)
  fraction_ne_nil := List.ne_nil_of_length_pos (by rw [List.length_drop]; omega)
  whole_digits _ hc := isDigit_of_mem_toDigits (List.mem_of_mem_take hc)
  fraction_digits _ hc := isDigit_of_mem_toDigits (List.mem_of_mem_drop hc)
  value_eq := by
    rw [List.take_append_drop, Nat.ofDigitChars_ten_toDigits, List.length_drop]
    congr 2
    omega

/-- All digits, and zeros before them, behind the point. -/
theorem positional_leading {coefficient places : Nat}
    (h : (Nat.toDigits 10 coefficient).length ≤ places) :
    let digits := Nat.toDigits 10 coefficient
    Positional coefficient (-places)
      ("0.".toList ++ List.replicate (places - digits.length) '0' ++ digits)
      ['0'] (List.replicate (places - digits.length) '0' ++ digits) where
  text_eq := by simp
  whole_ne_nil := by simp
  fraction_ne_nil := by simp
  whole_digits _ hc := digit_of_mem_zeros (show _ ∈ List.replicate 1 _ from hc)
  fraction_digits c hc := by
    rcases List.mem_append.1 hc with hc | hc
    · exact digit_of_mem_zeros hc
    · exact isDigit_of_mem_toDigits hc
  value_eq := by
    have digits : Nat.ofDigitChars 10 (['0'] ++
        (List.replicate (places - (Nat.toDigits 10 coefficient).length) '0' ++
          Nat.toDigits 10 coefficient)) 0 = coefficient := by
      simp [Nat.ofDigitChars_append, Nat.ofDigitChars_cons]
    rw [digits, List.length_append, List.length_replicate]
    congr 2
    omega

theorem exists_positional (coefficient : Nat) (power : Int) :
    ∃ whole fraction,
      Positional coefficient power (positionalText coefficient power) whole fraction := by
  match power with
  | .ofNat zeros => exact ⟨_, _, positional_zeros coefficient zeros⟩
  | .negSucc n =>
    by_cases h : n + 1 < (Nat.toDigits 10 coefficient).length
    · rw [positionalText, if_pos h]
      exact ⟨_, _, positional_inside h n.succ_pos⟩
    · rw [positionalText, if_neg h]
      exact ⟨_, _, positional_leading (not_lt.1 h)⟩

/-! ## Reading -/

/-- Digits, a point and digits are read to the end. -/
theorem Decimal.ofText?_digits (negative : Bool) {whole fraction : List Char}
    (hw : ∀ c ∈ whole, c.isDigit = true) (hf : ∀ c ∈ fraction, c.isDigit = true)
    (hne : whole ≠ []) :
    Decimal.ofText? negative (whole ++ '.' :: fraction) =
      some (.ofDigits negative whole fraction 0) := by
  have point : ('.' : Char).isDigit = false := rfl
  have takeWhole : (whole ++ '.' :: fraction).takeWhile Char.isDigit = whole := by
    rw [List.takeWhile_append_of_pos hw, List.takeWhile_cons_of_neg (by simp [point]),
      List.append_nil]
  have dropWhole : (whole ++ '.' :: fraction).dropWhile Char.isDigit = '.' :: fraction := by
    rw [List.dropWhile_append_of_pos hw, List.dropWhile_cons_of_neg (by simp [point])]
  have takeFraction : fraction.takeWhile Char.isDigit = fraction := by
    exact List.takeWhile_eq_self_iff.2 hf
  have dropFraction : fraction.dropWhile Char.isDigit = [] := by
    exact List.dropWhile_eq_nil_iff.2 hf
  simp [Decimal.ofText?, takeWhole, dropWhole, takeFraction, dropFraction, hne]

theorem toLower_of_isDigit {c : Char} (hc : c.isDigit = true) : c.toLower = c := by
  simp only [Char.isDigit, Bool.and_eq_true, decide_eq_true_eq] at hc
  exact dif_neg fun upper => absurd (UInt32.le_trans upper.1 hc.2) (by decide)

/-- A text that begins with a digit is no word for a number that is not finite. -/
theorem Binary64.ofText?_digits {negative : Bool} {c : Char} {text : List Char}
    (hc : c.isDigit = true) :
    Binary64.ofText? (signText negative ++ c :: text) =
      (Decimal.ofText? negative (c :: text)).map Decimal.nearest := by
  have other : ∀ d : Char, d.isDigit = false → c ≠ d := by
    rintro d hd rfl
    simp [hc] at hd
  have i := other 'i' rfl
  have n := other 'n' rfl
  have minus := other '-' rfl
  have plus := other '+' rfl
  have lower := toLower_of_isDigit hc
  cases negative with
  | true => simp [Binary64.ofText?, signText, lower, i, n]
  | false => simp [Binary64.ofText?, signText, lower, i, n, minus, plus]

/-- **A positional decimal reads back**: with the sign of a finite number in front, a decimal in the
interval of the number is read as the number. -/
theorem Binary64.ofText?_positionalText {x : Binary64} {coefficient : Nat} {power : Int}
    (nearest : ∀ c p, decimalValue c p = decimalValue coefficient power →
      Decimal.nearest ⟨x.negative, c, p⟩ = x) :
    Binary64.ofText? (signText x.negative ++ positionalText coefficient power) = some x := by
  obtain ⟨whole, fraction, layout⟩ := exists_positional coefficient power
  obtain ⟨c, rest, rfl⟩ := List.exists_cons_of_ne_nil layout.whole_ne_nil
  have read := Decimal.ofText?_digits x.negative layout.whole_digits layout.fraction_digits
    layout.whole_ne_nil
  rw [layout.text_eq, List.cons_append,
    Binary64.ofText?_digits (layout.whole_digits c List.mem_cons_self), ← List.cons_append, read,
    Option.map_some, Decimal.ofDigits, zero_sub, nearest _ _ layout.value_eq]

end MetadataFilter
