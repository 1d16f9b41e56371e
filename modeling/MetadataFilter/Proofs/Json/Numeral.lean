import MetadataFilter.Json.Reader
import MetadataFilter.Json.Writer
import MetadataFilter.Proofs.Number.Positional
import MetadataFilter.Proofs.Text.Stops

/-!
# Numbers read back from JSON

A numeral is digits without a needless zero in front, then perhaps a point with digits, then perhaps
a mark with an exponent (`Numeral.Spelled`); it is read part by part (`Numeral.Spelled.ofText?_eq`).
What is written for a number of JSON is such a numeral, and the numeral has the number as its value
(`Number.exists_numeral`): an integer stays an integer, and a floating-point number stays one, with
all its 64 bits.

The other way round, a numeral without point and exponent is read as an integer, unless it does not
fit 64 bits: then it is read as a floating-point number (`Numeral.number?_cases`).
-/

namespace MetadataFilter.Json

open Text (Stops stops_nil stops_cons takeWhile_append_stops dropWhile_append_stops)

namespace Numeral

/-! ## Parts of a numeral -/

/-- The text of a fraction, its point included. -/
inductive FractionText : List Char → Option (List Char) → Prop
  | absent : FractionText [] none
  | digits {digits : List Char} (h : isDigits digits = true) :
      FractionText ('.' :: digits) (some digits)

/-- The text of an exponent as it is written, with its mark and always with a sign. -/
inductive ExponentText : List Char → Option Int → Prop
  | absent : ExponentText [] none
  | down {digits : List Char} (h : isDigits digits = true) :
      ExponentText ('e' :: '-' :: digits) (some (-(Nat.ofDigitChars 10 digits 0 : Int)))
  | up {digits : List Char} (h : isDigits digits = true) :
      ExponentText ('e' :: '+' :: digits) (some (Nat.ofDigitChars 10 digits 0 : Int))

theorem isDigits_iff (text : List Char) :
    isDigits text = true ↔ text ≠ [] ∧ ∀ c ∈ text, c.isDigit = true := by
  simp [isDigits]

theorem isDigit_of_isWhole {text : List Char} (h : isWhole text = true) :
    ∀ c ∈ text, c.isDigit = true := by
  intro c mem
  match text with
  | [] => cases mem
  | [d] =>
    obtain rfl := List.mem_singleton.1 mem
    exact h
  | d :: e :: rest =>
    simp only [isWhole, Bool.and_eq_true, List.all_eq_true] at h
    rcases List.mem_cons.1 mem with rfl | mem
    · exact h.1.1
    · exact h.2 c mem

theorem isExponentMark_eq_false_of_isDigit {c : Char} (h : c.isDigit = true) :
    isExponentMark c = false := by
  by_contra mark
  simp only [isExponentMark, Bool.not_eq_false, Bool.or_eq_true, beq_iff_eq] at mark
  rcases mark with rfl | rfl <;> revert h <;> decide

section Parts

variable {whole fractionText exponentText : List Char} {fraction : Option (List Char)}
  {exponent : Option Int}

/-- The digits before the point end where a fraction begins. -/
theorem FractionText.stops (h : FractionText fractionText fraction) :
    Stops (· != '.') fractionText := by
  cases h with
  | absent => exact stops_nil _
  | digits => exact stops_cons rfl _

/-- The mantissa ends where an exponent begins. -/
theorem ExponentText.stops (h : ExponentText exponentText exponent) :
    Stops (!isExponentMark ·) exponentText := by
  cases h with
  | absent => exact stops_nil _
  | down | up => exact stops_cons rfl _

theorem ne_point_of_isWhole (h : isWhole whole = true) : ∀ c ∈ whole, (c != '.') = true := by
  intro c mem
  rw [bne_iff_ne]
  rintro rfl
  have digit := isDigit_of_isWhole h '.' mem
  cases digit

/-- There is no mark of an exponent in a mantissa. -/
theorem not_isExponentMark_of_mantissa (hw : isWhole whole = true)
    (hf : FractionText fractionText fraction) :
    ∀ c ∈ whole ++ fractionText, (!isExponentMark c) = true := by
  intro c mem
  rcases List.mem_append.1 mem with mem | mem
  · rw [isExponentMark_eq_false_of_isDigit (isDigit_of_isWhole hw c mem)]
    rfl
  · cases hf with
    | absent => cases mem
    | digits h =>
      rcases List.mem_cons.1 mem with rfl | mem
      · rfl
      · rw [isExponentMark_eq_false_of_isDigit (((isDigits_iff _).1 h).2 c mem)]
        rfl

/-- A numeral is read part by part. -/
theorem ofUnsigned?_parts (negative : Bool) (hw : isWhole whole = true)
    (hf : FractionText fractionText fraction) (he : ExponentText exponentText exponent) :
    ofUnsigned? negative (whole ++ fractionText ++ exponentText) =
      some ⟨negative, whole, fraction, exponent⟩ := by
  have mantissa := not_isExponentMark_of_mantissa hw hf
  have noPoint := ne_point_of_isWhole hw
  simp only [ofUnsigned?, takeWhile_append_stops mantissa he.stops,
    dropWhile_append_stops mantissa he.stops, takeWhile_append_stops noPoint hf.stops,
    dropWhile_append_stops noPoint hf.stops, hw, if_true]
  cases hf with
  | absent =>
    cases he with
    | absent => rfl
    | down h | up h => simp [exponent?, h]
  | digits digits =>
    cases he with
    | absent => simp [digits]
    | down h | up h => simp [digits, exponent?, h]

end Parts

/-- The text of a numeral: a sign if there is one, and the parts. -/
inductive Spelled : List Char → Numeral → Prop
  | parts {negative : Bool} {whole fractionText exponentText : List Char}
      {fraction : Option (List Char)} {exponent : Option Int} (hw : isWhole whole = true)
      (hf : FractionText fractionText fraction) (he : ExponentText exponentText exponent) :
      Spelled (signText negative ++ (whole ++ fractionText ++ exponentText))
        ⟨negative, whole, fraction, exponent⟩

namespace Spelled

variable {text : List Char} {n : Numeral}

theorem ofText?_eq (h : Spelled text n) : ofText? text = some n := by
  obtain @⟨negative, whole, _, _, _, _, hw, hf, he⟩ := h
  have unsigned := ofUnsigned?_parts negative hw hf he
  cases negative with
  | true => exact unsigned
  | false =>
    cases whole with
    | nil => cases hw
    | cons c rest =>
      have digit : c.isDigit = true := isDigit_of_isWhole hw c List.mem_cons_self
      rw [signText, if_neg Bool.false_ne_true, List.nil_append, ofText?.eq_def]
      split
      · rename_i minus
        obtain rfl : c = '-' := (List.cons.inj minus).1
        exact absurd digit (by decide)
      · exact unsigned

theorem ne_nil (h : Spelled text n) : text ≠ [] := by
  obtain @⟨_, whole, _, _, _, _, hw, -, -⟩ := h
  cases whole with
  | nil => cases hw
  | cons c rest => simp

theorem isNumeralChar (h : Spelled text n) : ∀ c ∈ text, isNumeralChar c = true := by
  have digit {c : Char} (h : c.isDigit = true) : Json.isNumeralChar c = true := by
    simp [Json.isNumeralChar, h]
  obtain @⟨negative, whole, _, _, _, _, hw, hf, he⟩ := h
  intro c mem
  rcases List.mem_append.1 mem with sign | mem
  · cases negative with
    | true =>
      obtain rfl := List.mem_singleton.1 sign
      rfl
    | false => cases sign
  rcases List.mem_append.1 mem with mem | exponent
  · rcases List.mem_append.1 mem with mem | fraction
    · exact digit (isDigit_of_isWhole hw c mem)
    · cases hf with
      | absent => cases fraction
      | digits h =>
        rcases List.mem_cons.1 fraction with rfl | mem
        · rfl
        · exact digit (((isDigits_iff _).1 h).2 c mem)
  · cases he with
    | absent => cases exponent
    | down h | up h =>
      rcases List.mem_cons.1 exponent with rfl | mem
      · rfl
      rcases List.mem_cons.1 mem with rfl | mem
      · rfl
      · exact digit (((isDigits_iff _).1 h).2 c mem)

end Spelled

end Numeral

/-! ## Digits -/

open Numeral

theorem isDigits_toDigits (n : Nat) : isDigits (Nat.toDigits 10 n) = true := by
  rw [isDigits_iff]
  exact ⟨Nat.toDigits_ne_nil, fun c mem => isDigit_of_mem_toDigits mem⟩

theorem isWhole_cons {c : Char} {rest : List Char} (digits : ∀ d ∈ c :: rest, d.isDigit = true)
    (h : c ≠ '0') : isWhole (c :: rest) = true := by
  have first : c.isDigit = true := digits c List.mem_cons_self
  cases rest with
  | nil => exact first
  | cons d rest =>
    have others : (d :: rest).all Char.isDigit = true :=
      List.all_eq_true.2 fun e mem => digits e (List.mem_cons_of_mem c mem)
    simp only [isWhole, first, others, bne_iff_ne.2 h, Bool.and_true]

/-- No number but zero is written with a zero in front. -/
theorem head?_toDigits_ne_zero {n : Nat} (h : 0 < n) : (Nat.toDigits 10 n).head? ≠ some '0' := by
  induction n using Nat.strong_induction_on with
  | _ n ih =>
    rw [Nat.toDigits_eq_if (by norm_num)]
    split
    · rename_i small
      have nonzero : ∀ n < 10, 0 < n → Nat.digitChar n ≠ '0' := by decide
      rw [List.head?_cons]
      exact fun zero => nonzero n small h (Option.some.inj zero)
    · rename_i large
      have less : n / 10 < n := Nat.div_lt_self h (by norm_num)
      have positive : 0 < n / 10 := Nat.div_pos (not_lt.1 large) (by norm_num)
      rw [List.head?_append_of_ne_nil _ Nat.toDigits_ne_nil]
      exact ih _ less positive

theorem isWhole_toDigits_append {n : Nat} (h : 0 < n) {rest : List Char}
    (digits : ∀ c ∈ rest, c.isDigit = true) : isWhole (Nat.toDigits 10 n ++ rest) = true := by
  have nonzero := head?_toDigits_ne_zero h
  have all : ∀ c ∈ Nat.toDigits 10 n ++ rest, c.isDigit = true := by
    intro c mem
    rcases List.mem_append.1 mem with mem | mem
    · exact isDigit_of_mem_toDigits mem
    · exact digits c mem
  cases text : Nat.toDigits 10 n with
  | nil => exact absurd text Nat.toDigits_ne_nil
  | cons c more =>
    rw [text] at nonzero all
    exact isWhole_cons all fun zero => nonzero (congrArg some zero)

theorem isWhole_toDigits (n : Nat) : isWhole (Nat.toDigits 10 n) = true := by
  rcases Nat.eq_zero_or_pos n with rfl | positive
  · rfl
  · rw [← List.append_nil (Nat.toDigits 10 n)]
    exact isWhole_toDigits_append positive nofun

/-! ## Integers -/

theorem intText_spelled (n : Int) :
    Spelled (intText n) ⟨decide (n < 0), Nat.toDigits 10 n.natAbs, none, none⟩ := by
  have spelled (negative : Bool) :
      Spelled (signText negative ++ (Nat.toDigits 10 n.natAbs ++ [] ++ []))
        ⟨negative, Nat.toDigits 10 n.natAbs, none, none⟩ :=
    .parts (isWhole_toDigits _) .absent .absent
  simp only [List.append_nil] at spelled
  unfold intText
  split
  · rename_i negative
    rw [decide_eq_true negative]
    exact spelled true
  · rename_i nonneg
    rw [decide_eq_false nonneg]
    exact spelled false

theorem number?_integer {n : Int} (inRange : -2 ^ (63 : Nat) ≤ n ∧ n < 2 ^ (64 : Nat)) :
    number? ⟨decide (n < 0), Nat.toDigits 10 n.natAbs, none, none⟩ =
      some (.integer n inRange) := by
  have value : wholeValue ⟨decide (n < 0), Nat.toDigits 10 n.natAbs, none, none⟩ = n := by
    simp only [wholeValue, Nat.ofDigitChars_ten_toDigits, decide_eq_true_eq]
    split <;> omega
  have notMinusZero : ¬(decide (n < 0) = true ∧ n = 0) := by
    rw [decide_eq_true_eq]
    omega
  simp only [number?, value, notMinusZero]
  rw [if_pos ⟨rfl, not_false⟩, dif_pos inRange]

/-! ## Floating-point numbers -/

/-- The text spells a decimal number, and not as an integer. -/
def SpellsDecimal (negative : Bool) (coefficient : Nat) (power : Int) (text : List Char) : Prop :=
  ∃ n : Numeral, Spelled (signText negative ++ text) n ∧ n.isInteger = false ∧
    n.negative = negative ∧
    decimalValue n.decimal.coefficient n.decimal.exponent = decimalValue coefficient power

theorem spellsDecimal_of_positional {coefficient : Nat} {power : Int}
    {text whole fraction : List Char} (layout : Positional coefficient power text whole fraction)
    (hw : isWhole whole = true) (negative : Bool) :
    SpellsDecimal negative coefficient power text := by
  have digits : isDigits fraction = true :=
    (isDigits_iff fraction).2 ⟨layout.fraction_ne_nil, layout.fraction_digits⟩
  have spelled : Spelled (signText negative ++ (whole ++ ('.' :: fraction) ++ []))
      ⟨negative, whole, some fraction, none⟩ :=
    .parts hw (.digits digits) .absent
  rw [List.append_nil, ← layout.text_eq] at spelled
  refine ⟨_, spelled, rfl, rfl, ?_⟩
  rw [← layout.value_eq]
  simp [Numeral.decimal, Decimal.ofDigits]

/-- A positional text has no needless zero in front, and the digits of the coefficient come last,
before the zero of an integer. -/
theorem exists_positional_isWhole {coefficient : Nat} {power : Int}
    (h : 0 < coefficient ∨ power = 0) :
    ∃ whole fraction,
      Positional coefficient power (positionalText coefficient power) whole fraction ∧
      isWhole whole = true ∧ (0 ≤ power → fraction = ['0']) ∧
      (power < 0 → fraction.getLast? = (Nat.toDigits 10 coefficient).getLast?) := by
  match power with
  | .ofNat zeros =>
    have nonneg : ¬Int.ofNat zeros < 0 := Int.not_lt.2 (Int.natCast_nonneg zeros)
    refine ⟨_, _, positional_zeros coefficient zeros, ?_, fun _ => rfl, (absurd · nonneg)⟩
    rcases h with positive | none
    · exact isWhole_toDigits_append positive fun c mem => digit_of_mem_zeros mem
    · obtain rfl : zeros = 0 := Int.ofNat.inj none
      rw [List.replicate_zero, List.append_nil]
      exact isWhole_toDigits coefficient
  | .negSucc n =>
    have positive : 0 < coefficient := h.resolve_right nofun
    have negative : ¬0 ≤ Int.negSucc n := (Int.negSucc_not_nonneg n).1
    by_cases inside : n + 1 < (Nat.toDigits 10 coefficient).length
    · rw [positionalText, if_pos inside]
      refine ⟨_, _, positional_inside inside n.succ_pos, ?_, (absurd · negative), fun _ => ?_⟩
      · have nonzero := head?_toDigits_ne_zero positive
        have digits : ∀ c ∈ Nat.toDigits 10 coefficient, c.isDigit = true :=
          fun c mem => isDigit_of_mem_toDigits mem
        generalize Nat.toDigits 10 coefficient = text at inside nonzero digits
        obtain ⟨places, more⟩ : ∃ places, text.length - (n + 1) = places + 1 :=
          Nat.exists_eq_add_one.2 (Nat.sub_pos_of_lt inside)
        cases text with
        | nil => cases inside
        | cons c rest =>
          rw [more, List.take_succ_cons]
          refine isWhole_cons (fun d mem => digits d ?_) fun zero => nonzero (congrArg some zero)
          exact List.mem_of_mem_take (List.take_succ_cons ▸ mem)
      · rw [List.getLast?_drop, if_neg (by omega)]
    · rw [positionalText, if_neg inside]
      refine ⟨_, _, positional_leading (not_lt.1 inside), rfl, (absurd · negative), fun _ => ?_⟩
      exact List.getLast?_append_of_ne_nil _ Nat.toDigits_ne_nil

theorem positionalText_spellsDecimal {coefficient : Nat} {power : Int}
    (h : 0 < coefficient ∨ power = 0) (negative : Bool) :
    SpellsDecimal negative coefficient power (positionalText coefficient power) := by
  obtain ⟨whole, fraction, layout, leading, -⟩ := exists_positional_isWhole h
  exact spellsDecimal_of_positional layout leading negative

theorem exponentText_signed (power : Int) :
    ExponentText ('e' :: (if power < 0 then '-' else '+') :: Nat.toDigits 10 power.natAbs)
      (some power) := by
  have digits := isDigits_toDigits power.natAbs
  split
  · have down := ExponentText.down digits
    rwa [Nat.ofDigitChars_ten_toDigits, show -(power.natAbs : Int) = power by omega] at down
  · have up := ExponentText.up digits
    rwa [Nat.ofDigitChars_ten_toDigits, show (power.natAbs : Int) = power by omega] at up

theorem scientificText_spellsDecimal (coefficient : Nat) (power : Int) (negative : Bool) :
    SpellsDecimal negative coefficient power (scientificText coefficient power) := by
  have digits : ∀ c ∈ Nat.toDigits 10 coefficient, c.isDigit = true :=
    fun c mem => isDigit_of_mem_toDigits mem
  have coefficientValue := Nat.ofDigitChars_ten_toDigits (n := coefficient)
  unfold scientificText leadingPower
  cases text : Nat.toDigits 10 coefficient with
  | nil => exact absurd text Nat.toDigits_ne_nil
  | cons first more =>
    rw [text] at digits coefficientValue
    have whole : isWhole [first] = true := digits first List.mem_cons_self
    have exponent := exponentText_signed (power + (more.length + 1 : Nat) - 1)
    have value : decimalValue (Nat.ofDigitChars 10 (first :: more) 0)
        (power + (more.length + 1 : Nat) - 1 - more.length) = decimalValue coefficient power := by
      rw [coefficientValue, show power + (more.length + 1 : Nat) - 1 - more.length = power by omega]
    cases more with
    | nil => exact ⟨_, .parts whole .absent exponent, rfl, rfl, value⟩
    | cons second rest =>
      have fraction : isDigits (second :: rest) = true := by
        rw [isDigits_iff]
        exact ⟨List.cons_ne_nil _ _, fun c mem => digits c (List.mem_cons_of_mem first mem)⟩
      exact ⟨_, .parts whole (.digits fraction) exponent, rfl, rfl, value⟩

/-- A numeral with a point or an exponent is the number that its decimal is nearest to. -/
theorem number?_of_nearest {n : Numeral} {x : Binary64} (finite : x.isFinite = true)
    (notInteger : n.isInteger = false) (nearest : n.decimal.nearest = x) :
    n.number? = some (.float x finite) := by
  subst nearest
  rw [number?, if_neg (by simp [notInteger]), float?, dif_pos finite]

theorem decimalText_spellsDecimal {coefficient : Nat} {power : Int}
    (h : 0 < coefficient ∨ power = 0) (negative : Bool) :
    SpellsDecimal negative coefficient power (decimalText coefficient power) := by
  unfold decimalText
  simp only
  split
  · exact positionalText_spellsDecimal h negative
  · exact scientificText_spellsDecimal coefficient power negative

theorem exists_numeral_float {x : Binary64} (finite : x.isFinite = true) :
    ∃ n, Spelled (floatText x) n ∧ n.number? = some (.float x finite) := by
  have read {coefficient : Nat} {power : Int} (h : 0 < coefficient ∨ power = 0)
      (nearest : ∀ c p, decimalValue c p = decimalValue coefficient power →
        Decimal.nearest ⟨x.negative, c, p⟩ = x) :
      ∃ n, Spelled (signText x.negative ++ decimalText coefficient power) n ∧
        n.number? = some (.float x finite) := by
    obtain ⟨n, spelled, notInteger, sign, value⟩ := decimalText_spellsDecimal h x.negative
    refine ⟨n, spelled, number?_of_nearest finite notInteger ?_⟩
    rw [← nearest _ _ value, ← sign]
    rfl
  rw [floatText]
  by_cases zero : x.isZero = true
  · rw [Binary64.shortest, if_pos zero]
    refine read (.inr rfl) fun c p value => ?_
    obtain rfl : c = 0 := by
      simpa [decimalValue, (ten_zpow_pos p).ne'] using value
    exact Decimal.nearest_zero zero p
  · rw [Bool.not_eq_true] at zero
    have mem := Binary64.shortest_mem .even zero
    have positive : 0 < (x.shortest .even).1 := Decimal.coefficient_pos_of_mem finite zero mem
    refine read (.inl positive) fun c p value => ?_
    exact Decimal.nearest_eq_of_mem finite zero (value ▸ mem)

/-- **What is written for a number is a numeral with the value of the number.** -/
theorem Number.exists_numeral (number : Number) :
    ∃ n, Spelled number.text n ∧ n.number? = some number := by
  cases number with
  | integer n inRange => exact ⟨_, intText_spelled n, number?_integer inRange⟩
  | float x finite => exact exists_numeral_float finite

/-! ## What a numeral denotes -/

namespace Numeral

variable {n : Numeral}

/-- The number of a numeral is the integer that it denotes, or the nearest floating-point number;
an integer has the latter only if it is minus zero or does not fit 64 bits. -/
theorem number?_cases {number : Number} (read : n.number? = some number) :
    (n.isInteger = true ∧ ∃ inRange, number = .integer n.wholeValue inRange) ∨
      (∃ finite, number = .float n.decimal.nearest finite) ∧
        (n.isInteger = true → n.negative = true ∧ n.wholeValue = 0 ∨
          n.wholeValue < -2 ^ (63 : Nat) ∨ 2 ^ (64 : Nat) ≤ n.wholeValue) := by
  have nearest (read : n.float? = some number) :
      ∃ finite, number = .float n.decimal.nearest finite := by
    simp only [float?] at read
    split_ifs at read with finite
    exact ⟨finite, (Option.some.inj read).symm⟩
  unfold number? at read
  split_ifs at read with plain inRange
  · exact .inl ⟨plain.1, inRange, (Option.some.inj read).symm⟩
  · refine .inr ⟨nearest read, fun _ => .inr ?_⟩
    omega
  · refine .inr ⟨nearest read, fun whole => .inl ?_⟩
    by_contra notMinusZero
    exact plain ⟨whole, notMinusZero⟩

theorem nearest_of_minusZero (whole : n.isInteger = true) (negative : n.negative = true)
    (zero : n.wholeValue = 0) : n.decimal.nearest = .zero true := by
  have digits : Nat.ofDigitChars 10 n.whole 0 = 0 := by
    simpa [wholeValue, negative] using zero
  have none : n.fraction = none := by
    simp only [isInteger, Bool.and_eq_true, Option.isNone_iff_eq_none] at whole
    exact whole.1
  simp [decimal, Decimal.ofDigits, Decimal.nearest, none, digits, negative]

end Numeral

end MetadataFilter.Json
