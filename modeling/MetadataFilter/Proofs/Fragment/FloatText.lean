import MetadataFilter.Proofs.Fragment.Scalar
import MetadataFilter.Proofs.Json.Numeral
import MetadataFilter.Proofs.Number.ShortestDigits

/-!
# Floating-point numbers as plain decimals

A finite number is written in a fragment as a plain decimal (`Plain`), without an exponent: the
exact integer with `.0` behind it for a number without a fractional part, else the shortest decimal,
which ends in a digit other than zero. Either way the number is the only one of its sign that is
nearest to the decimal (`Fragment.floatText_plain`).
-/

namespace MetadataFilter

open Binary64 (IsNearest)

/-- A decimal without an exponent: an integer without needless zeros in front, and digits behind the
point. -/
structure Plain where
  negative : Bool
  whole : List Char
  fraction : List Char
  whole_isWhole : Json.Numeral.isWhole whole = true
  fraction_isDigits : Json.Numeral.isDigits fraction = true

namespace Plain

variable (d : Plain)

def text : List Char := signText d.negative ++ (d.whole ++ '.' :: d.fraction)

/-- The rational number that the text stands for, without its sign. -/
def magnitude : ℚ :=
  decimalValue (Nat.ofDigitChars 10 (d.whole ++ d.fraction) 0) (-d.fraction.length)

theorem head?_text : d.text.head? = some '-' ↔ d.negative = true := by
  obtain ⟨negative, whole, fraction, digits, -⟩ := d
  cases negative with
  | true => simp [text, signText]
  | false =>
    cases whole with
    | nil => cases digits
    | cons c rest =>
      have digit : c.isDigit = true := Json.Numeral.isDigit_of_isWhole digits c List.mem_cons_self
      suffices c ≠ '-' by simpa [text, signText]
      rintro rfl
      cases digit

theorem getLast?_text : d.text.getLast? = d.fraction.getLast? := by
  have nonempty := ((Json.Numeral.isDigits_iff _).1 d.fraction_isDigits).1
  rw [text, List.append_cons, ← List.append_assoc, List.getLast?_append_of_ne_nil _ nonempty]

theorem suffix_text : '.' :: d.fraction <:+ d.text :=
  ⟨signText d.negative ++ d.whole, List.append_assoc _ _ _⟩

/-- A text is read as a plain decimal in one way only. -/
theorem text_injective : Function.Injective text := by
  intro d e same
  have negative : d.negative = e.negative := by
    rw [Bool.eq_iff_iff, ← head?_text, ← head?_text, same]
  have unsigned : d.whole ++ '.' :: d.fraction = e.whole ++ '.' :: e.fraction := by
    rw [text, text, negative] at same
    exact List.append_cancel_left same
  -- the digits in front of the point hold no point themselves
  have noPoint (d : Plain) : '.' ∉ d.whole := fun mem =>
    bne_iff_ne.1 (Json.Numeral.ne_point_of_isWhole d.whole_isWhole '.' mem) rfl
  obtain ⟨whole, fraction⟩ := Text.cut_unique (noPoint e) (noPoint d) unsigned
  cases d
  cases e
  simp only [Plain.mk.injEq]
  exact ⟨negative, whole, fraction⟩

end Plain

/-- A positional text is a plain decimal. -/
theorem exists_plain (coefficient : Nat) (power : Int) (h : 0 < coefficient ∨ power = 0)
    (negative : Bool) :
    ∃ d : Plain, signText negative ++ positionalText coefficient power = d.text ∧
      d.negative = negative ∧ d.magnitude = decimalValue coefficient power ∧
      (0 ≤ power → d.fraction = ['0']) ∧
      (power < 0 → d.fraction.getLast? = (Nat.toDigits 10 coefficient).getLast?) := by
  obtain ⟨whole, fraction, layout, leading, integer, fractional⟩ :=
    Json.exists_positional_isWhole h
  have digits := (Json.Numeral.isDigits_iff fraction).2
    ⟨layout.fraction_ne_nil, layout.fraction_digits⟩
  refine ⟨⟨negative, whole, fraction, leading, digits⟩, ?_, rfl, layout.value_eq, integer,
    fractional⟩
  rw [layout.text_eq]
  rfl

namespace Fragment

variable {x : Binary64}

/-- The exact integer, and a zero behind the point. -/
theorem floatText_of_isWhole (finite : x.isFinite = true) (whole : x.isWhole = true) :
    ∃ d : Plain, floatText x = d.text ∧ d.negative = x.negative ∧ d.magnitude = x.magnitude ∧
      d.fraction = ['0'] := by
  obtain ⟨d, text, sign, value, integer, -⟩ :=
    exists_plain x.wholeMagnitude 0 (.inr rfl) x.negative
  refine ⟨d, ?_, sign, ?_, integer le_rfl⟩
  · rw [floatText_of_isFinite finite, if_pos whole, text]
  · rw [value, decimalValue, zpow_zero, mul_one, Binary64.wholeMagnitude_value whole,
      Binary64.magnitude]

/-- A decimal from the interval of the number, without a zero at its end. -/
theorem floatText_of_not_isWhole (finite : x.isFinite = true) (fractional : x.isWhole = false) :
    ∃ d : Plain, floatText x = d.text ∧ d.negative = x.negative ∧ x.interval.Mem d.magnitude ∧
      d.fraction.getLast? ≠ some '0' := by
  have nonzero := Binary64.isZero_of_not_isWhole finite fractional
  have mem := Binary64.shortest_mem .up nonzero
  obtain ⟨negative, digits⟩ := Binary64.shortest_digits .up finite fractional
  have positive := Decimal.coefficient_pos_of_mem finite nonzero mem
  obtain ⟨d, text, sign, value, -, last⟩ := exists_plain _ _ (.inl positive) x.negative
  refine ⟨d, ?_, sign, value ▸ mem, ?_⟩
  · rw [floatText_of_isFinite finite, if_neg (by simp [fractional]), text]
  · rw [last negative]
    exact getLast?_toDigits_ne_zero digits

/-- A decimal that a number is nearest to rounds to that number and to no other one. -/
theorem isNearest_iff_eq {d : Plain} (nearest : IsNearest d.magnitude x)
    (sign : d.negative = x.negative) (y : Binary64) :
    IsNearest d.magnitude y ∧ y.negative = d.negative ↔ y = x := by
  constructor
  · rintro ⟨other, same⟩
    exact Binary64.eq_of_rank_eq (other.rank_eq nearest) (same.trans sign)
  · rintro rfl
    exact ⟨nearest, sign.symm⟩

/-- **A finite number is written as a plain decimal that rounds to it**, and to no other number. The
text has a minus sign exactly if the number has one, minus zero included. It is exact and ends in
`.0` if the number is an integer; otherwise its last digit is not a zero. -/
theorem floatText_plain (finite : x.isFinite = true) :
    ∃ d : Plain, floatText x = d.text ∧
      ((floatText x).head? = some '-' ↔ x.negative = true) ∧
      (∀ y, IsNearest d.magnitude y ∧ y.negative = d.negative ↔ y = x) ∧
      (∀ n : Nat, x.magnitude = n → d.magnitude = n ∧ ".0".toList <:+ floatText x) ∧
      ((∀ n : Nat, x.magnitude ≠ n) → (floatText x).getLast? ≠ some '0') := by
  by_cases whole : x.isWhole = true
  · obtain ⟨d, text, sign, value, fraction⟩ := floatText_of_isWhole finite whole
    have nearest : IsNearest d.magnitude x := value ▸ Binary64.isNearest_magnitude finite
    refine ⟨d, text, ?_, isNearest_iff_eq nearest sign, ?_, ?_⟩
    · rw [text, d.head?_text, sign]
    · intro n integer
      have ending := d.suffix_text
      rw [fraction, ← text] at ending
      exact ⟨value.trans integer, ending⟩
    · intro fractional
      obtain ⟨n, integer⟩ := (Binary64.isWhole_iff finite).1 whole
      exact absurd integer (fractional n)
  · have fractional : x.isWhole = false := by simpa using whole
    obtain ⟨d, text, sign, mem, last⟩ := floatText_of_not_isWhole finite fractional
    have nonzero := Binary64.isZero_of_not_isWhole finite fractional
    have nearest := Binary64.isNearest_of_mem finite nonzero mem
    refine ⟨d, text, ?_, isNearest_iff_eq nearest sign, ?_, ?_⟩
    · rw [text, d.head?_text, sign]
    · intro n integer
      exact absurd ((Binary64.isWhole_iff finite).2 ⟨n, integer⟩) whole
    · rw [text, d.getLast?_text]
      exact fun _ => last

/-- What is written for the number with the sign nearest to a tenth. -/
theorem floatText_plain_tenth :
    let x := Binary64.ofBits 0xBFB999999999999A
    x.isFinite = true ∧ floatText x = "-0.1".toList ∧
      ∀ y, IsNearest (1 / 10) y ∧ y.negative = true ↔ y = x := by
  intro x
  have finite : x.isFinite = true := by decide
  have written : floatText x = "-0.1".toList := by decide +kernel
  obtain ⟨d, text, -, nearest, -⟩ := floatText_plain finite
  let tenth : Plain := ⟨true, ['0'], ['1'], rfl, rfl⟩
  obtain rfl : d = tenth := Plain.text_injective (text.symm.trans written)
  have digits : Nat.ofDigitChars 10 ['0', '1'] 0 = 1 := rfl
  have magnitude : tenth.magnitude = 1 / 10 := by
    norm_num [tenth, Plain.magnitude, decimalValue, digits]
  rw [magnitude] at nearest
  exact ⟨finite, written, nearest⟩

end Fragment

end MetadataFilter
