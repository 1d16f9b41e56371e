import MetadataFilter.Fragment.Basic
import MetadataFilter.Proofs.Filter.WellFormed
import MetadataFilter.Proofs.Number.Positional
import MetadataFilter.Proofs.Text.Stops

/-!
# Scalars in a fragment

A scalar written in place can be read back: quoted text up to its closing quote, and a number or a
truth value up to the first character that cannot stand in one (`Closed`). Integers, floating-point
numbers and truth values never share a text.

* `Fragment.ofText?_floatText`: the text of a finite number reads back as the number, bit by bit.
* `Fragment.scalarText_unique`: if two scalars, each with a closed rest behind it, make the same
  text, then the scalars and the rests are equal.
-/

namespace MetadataFilter

namespace Fragment

/-! ## Floating-point numbers -/

theorem floatText_of_isFinite {x : Binary64} (finite : x.isFinite = true) :
    floatText x = signText x.negative ++
      if x.isWhole then positionalText x.wholeMagnitude 0
      else positionalText (x.shortest .up).1 (x.shortest .up).2 := by
  have exponent : (x.exponent == 2047) = false := by simpa [Binary64.isFinite] using finite
  have nan : ¬x.isNaN = true := by simp [Binary64.isNaN, exponent]
  have infinite : ¬x.isInfinite = true := by simp [Binary64.isInfinite, exponent]
  rw [floatText, if_neg nan]
  -- the kernel would run the search for the shortest decimal if it had no name
  generalize x.shortest .up = decimal
  obtain ⟨coefficient, power⟩ := decimal
  rw [if_neg infinite]

/-- **The text of a finite number reads back** as the number, with all its 64 bits. -/
theorem ofText?_floatText {x : Binary64} (finite : x.isFinite = true) :
    Binary64.ofText? (floatText x) = some x := by
  rw [floatText_of_isFinite finite]
  by_cases zero : x.isZero = true
  · rw [if_pos (Binary64.isWhole_of_isZero finite zero), Binary64.wholeMagnitude_of_isZero zero]
    apply Binary64.ofText?_positionalText
    intro c p value
    obtain rfl : c = 0 := by
      simpa [decimalValue, (ten_zpow_pos p).ne'] using value
    exact Decimal.nearest_zero zero p
  · rw [Bool.not_eq_true] at zero
    split
    · rename_i whole
      apply Binary64.ofText?_positionalText
      intro c p value
      apply Decimal.nearest_eq_of_mem finite zero
      rw [value, decimalValue, zpow_zero, mul_one, Binary64.wholeMagnitude_value whole]
      exact Binary64.mem_interval_self zero
    · apply Binary64.ofText?_positionalText
      intro c p value
      apply Decimal.nearest_eq_of_mem finite zero
      rw [value]
      exact Binary64.shortest_mem .up zero

theorem floatText_injective {x y : Binary64} (hx : x.isFinite = true) (hy : y.isFinite = true)
    (h : floatText x = floatText y) : x = y :=
  Option.some.inj (by rw [← ofText?_floatText hx, h, ofText?_floatText hy])

/-! ## Integers -/

theorem minus_not_mem_toDigits (n : Nat) : '-' ∉ Nat.toDigits 10 n :=
  fun h => absurd (isDigit_of_mem_toDigits h) (by decide)

theorem intText_injective {m n : Int} (h : intText m = intText n) : m = n := by
  unfold intText at h
  split_ifs at h with hm hn hn
  · have := toDigits_injective (List.cons.inj h).2
    omega
  · exact absurd (h ▸ List.mem_cons_self) (minus_not_mem_toDigits _)
  · exact absurd (h ▸ List.mem_cons_self) (minus_not_mem_toDigits _)
  · have := toDigits_injective h
    omega

/-! ## Numbers and truth values -/

/-- A character of a number. -/
def isNumberChar (c : Char) : Bool := c.isDigit || c == '-' || c == '.'

/-- A character of a number or of a truth value. -/
def isBareChar (c : Char) : Bool := isNumberChar c || c.isAlpha

/-- Nothing that follows could be part of a number or of a truth value. -/
def Closed (rest : List Char) : Prop := ∀ c ∈ rest.head?, isBareChar c = false

theorem takeWhile_append_closed {text rest : List Char} (ht : ∀ c ∈ text, isBareChar c = true)
    (hr : Closed rest) : (text ++ rest).takeWhile isBareChar = text :=
  Text.takeWhile_append_stops ht hr

theorem bare_unique {p q r r' : List Char} (hp : ∀ c ∈ p, isBareChar c = true)
    (hq : ∀ c ∈ q, isBareChar c = true) (hr : Closed r) (hr' : Closed r')
    (h : p ++ r = q ++ r') : p = q ∧ r = r' := by
  have same : p = q := by
    rw [← takeWhile_append_closed hp hr, h, takeWhile_append_closed hq hr']
  subst same
  exact ⟨rfl, List.append_cancel_left h⟩

theorem isNumberChar_of_isDigit {c : Char} (h : c.isDigit = true) : isNumberChar c = true := by
  simp [isNumberChar, h]

theorem intText_number (n : Int) : ∀ c ∈ intText n, c.isDigit = true ∨ c = '-' := by
  intro c hc
  unfold intText at hc
  split at hc
  · rcases List.mem_cons.1 hc with rfl | hc
    · exact .inr rfl
    · exact .inl (isDigit_of_mem_toDigits hc)
  · exact .inl (isDigit_of_mem_toDigits hc)

theorem positionalText_number (coefficient : Nat) (power : Int) :
    ∀ c ∈ positionalText coefficient power, isNumberChar c = true := by
  obtain ⟨whole, fraction, layout⟩ := exists_positional coefficient power
  rw [layout.text_eq]
  intro c hc
  rcases List.mem_append.1 hc with hc | hc
  · exact isNumberChar_of_isDigit (layout.whole_digits c hc)
  · rcases List.mem_cons.1 hc with rfl | hc
    · rfl
    · exact isNumberChar_of_isDigit (layout.fraction_digits c hc)

theorem point_mem_positionalText (coefficient : Nat) (power : Int) :
    '.' ∈ positionalText coefficient power := by
  obtain ⟨whole, fraction, layout⟩ := exists_positional coefficient power
  rw [layout.text_eq]
  exact List.mem_append_right _ List.mem_cons_self

theorem floatText_number {x : Binary64} (finite : x.isFinite = true) :
    ∀ c ∈ floatText x, isNumberChar c = true := by
  have sign : ∀ c ∈ signText x.negative, isNumberChar c = true := by
    apply List.all_eq_true.1
    cases x.negative <;> rfl
  rw [floatText_of_isFinite finite]
  intro c hc
  rcases List.mem_append.1 hc with hc | hc
  · exact sign c hc
  · split at hc <;> exact positionalText_number _ _ c hc

theorem point_mem_floatText {x : Binary64} (finite : x.isFinite = true) : '.' ∈ floatText x := by
  rw [floatText_of_isFinite finite]
  apply List.mem_append_right
  split <;> exact point_mem_positionalText _ _

/-- The text of a truth value. -/
def boolText (b : Bool) : List Char := (if b then "true" else "false").toList

theorem boolText_alpha (b : Bool) : ∀ c ∈ boolText b, c.isAlpha = true := by
  apply List.all_eq_true.1
  cases b <;> rfl

theorem letter_mem_boolText (b : Bool) : 'e' ∈ boolText b := by
  cases b <;> decide

theorem boolText_injective {a b : Bool} (h : boolText a = boolText b) : a = b := by
  revert h
  cases a <;> cases b <;> decide

/-! Only floating-point numbers have a point, and only truth values have letters. -/

theorem intText_ne_floatText (n : Int) {x : Binary64} (finite : x.isFinite = true) :
    intText n ≠ floatText x := by
  intro h
  have point := intText_number n '.' (h ▸ point_mem_floatText finite)
  revert point
  decide

theorem intText_ne_boolText (n : Int) (b : Bool) : intText n ≠ boolText b := by
  intro h
  have letter := intText_number n 'e' (h ▸ letter_mem_boolText b)
  revert letter
  decide

theorem floatText_ne_boolText {x : Binary64} (finite : x.isFinite = true) (b : Bool) :
    floatText x ≠ boolText b := by
  intro h
  have letter := floatText_number finite 'e' (h ▸ letter_mem_boolText b)
  revert letter
  decide

/-! ## Scalars -/

/-- Quoted text reads back up to its closing quote. -/
theorem literalText_unique {mode : Mode} (strict : mode.isStrict = true) {s t : String}
    {r r' : List Char} (h : literalText mode s ++ r = literalText mode t ++ r') :
    s = t ∧ r = r' := by
  simp only [literalText, strict, if_true, List.cons_append, List.append_assoc, List.nil_append,
    List.cons.injEq, true_and] at h
  have read := congrArg closeLiteral? h
  rw [closeLiteral?_escape, closeLiteral?_escape, Option.some.injEq, Prod.mk.injEq] at read
  exact ⟨String.toList_inj.1 read.1, read.2⟩

/-- A scalar is a string, or is written with the characters of numbers and truth values. -/
theorem string_or_bare {x : Scalar} (hx : x.Finite) :
    (∃ s, x = .string s) ∨ (∀ s, x ≠ .string s) ∧
      scalarText .escaped x ≠ [] ∧ ∀ c ∈ scalarText .escaped x, isBareChar c = true := by
  cases x with
  | string s => exact .inl ⟨s, rfl⟩
  | integer n =>
    refine .inr ⟨nofun, ?_, fun c hc => ?_⟩
    · simp only [scalarText, intText]
      split <;> simp
    · rcases intText_number _ c hc with digit | rfl
      · simp [isBareChar, isNumberChar, digit]
      · rfl
  | float x =>
    refine .inr ⟨nofun, List.ne_nil_of_mem (point_mem_floatText hx), fun c hc => ?_⟩
    simp [isBareChar, floatText_number hx c hc]
  | bool b =>
    refine .inr ⟨nofun, List.ne_nil_of_mem (letter_mem_boolText b), fun c hc => ?_⟩
    simp [isBareChar, boolText_alpha b c hc]

theorem bareText_injective {x y : Scalar} (hx : x.Finite) (hy : y.Finite)
    (nx : ∀ s, x ≠ .string s) (ny : ∀ s, y ≠ .string s)
    (h : scalarText .escaped x = scalarText .escaped y) : x = y := by
  match x, y, h with
  | .string s, _, _ => exact absurd rfl (nx s)
  | _, .string s, _ => exact absurd rfl (ny s)
  | .integer m, .integer n, h => rw [Int64.toInt_inj.1 (intText_injective h)]
  | .float x, .float y, h => rw [floatText_injective hx hy h]
  | .bool a, .bool b, h => rw [boolText_injective h]
  | .integer n, .float x, h => exact absurd h (intText_ne_floatText _ hy)
  | .float x, .integer n, h => exact absurd h.symm (intText_ne_floatText _ hx)
  | .integer n, .bool b, h => exact absurd h (intText_ne_boolText _ b)
  | .bool b, .integer n, h => exact absurd h.symm (intText_ne_boolText _ b)
  | .float x, .bool b, h => exact absurd h (floatText_ne_boolText hx b)
  | .bool b, .float x, h => exact absurd h.symm (floatText_ne_boolText hy b)

/-- Quoted text is not the text of a number or a truth value. -/
theorem literalText_append_ne {s : String} {p r r' : List Char} (hp : p ≠ [])
    (bare : ∀ c ∈ p, isBareChar c = true) : literalText .escaped s ++ r ≠ p ++ r' := by
  intro h
  obtain ⟨c, p, rfl⟩ := List.exists_cons_of_ne_nil hp
  obtain rfl : '"' = c := (List.cons.inj h).1
  exact absurd (bare '"' List.mem_cons_self) (by decide)

/-- **The text of a scalar in place determines the scalar**, and where it ends. -/
theorem scalarText_unique {x y : Scalar} (hx : x.Finite) (hy : y.Finite) {r r' : List Char}
    (hr : Closed r) (hr' : Closed r')
    (h : scalarText .escaped x ++ r = scalarText .escaped y ++ r') : x = y ∧ r = r' := by
  rcases string_or_bare hx with ⟨s, rfl⟩ | ⟨nx, neX, bareX⟩ <;>
    rcases string_or_bare hy with ⟨t, rfl⟩ | ⟨ny, neY, bareY⟩
  · obtain ⟨rfl, rest⟩ := literalText_unique (show Mode.escaped.isStrict = true from rfl) h
    exact ⟨rfl, rest⟩
  · exact absurd h (literalText_append_ne neY bareY)
  · exact absurd h.symm (literalText_append_ne neX bareX)
  · obtain ⟨same, rest⟩ := bare_unique bareX bareY hr hr' h
    exact ⟨bareText_injective hx hy nx ny same, rest⟩

end Fragment

end MetadataFilter
