import Mathlib
import MetadataFilter.Input.Document
import MetadataFilter.Proofs.Compiler.JsonText
import MetadataFilter.Proofs.Document.Leaves
import MetadataFilter.Proofs.Document.TooLarge

/-!
# What becomes of the integers of a JSON text

Each literal of a text that compiles becomes a scalar of the filter (`Json.Written.Becomes`): an
integer that fits 64 bits with its sign stays that integer. One that fits 64 bits only without a
sign is out of range, and a document with no other fault is refused for it. But what fits 64 bits
in neither way is read as a floating-point number before the range is looked at, and compiles as
one, not always with the value that it had (`Compiler.compile_integer_literals`).
-/

namespace MetadataFilter

open scoped Power

namespace Json

/-- The scalar that a literal of a text becomes. -/
inductive Written.Becomes : Written → Scalar → Prop
  | bool (b : Bool) : Becomes (.bool b) (.bool b)
  | string (s : String) : Becomes (.string s) (.string s)
  /-- An integer stays the integer that it is. -/
  | integer {n : Numeral} {i : Int64} (whole : n.isInteger = true)
      (value : i.toInt = n.wholeValue) : Becomes (.number n) (.integer i)
  | minusZero {n : Numeral} (whole : n.isInteger = true) (negative : n.negative = true)
      (zero : n.wholeValue = 0) : Becomes (.number n) (.float (.zero true))
  /-- Integers beyond those of 64 bits are not integers any more. -/
  | beyond {n : Numeral} (whole : n.isInteger = true)
      (outside : n.wholeValue < -2 ^ (63 : Nat) ∨ 2 ^ (64 : Nat) ≤ n.wholeValue)
      (finite : n.decimal.nearest.isFinite = true) :
      Becomes (.number n) (.float n.decimal.nearest)
  | float {n : Numeral} (whole : n.isInteger = false)
      (finite : n.decimal.nearest.isFinite = true) :
      Becomes (.number n) (.float n.decimal.nearest)

/-! ## Literals -/

theorem Written.becomes_of_numeral {n : Numeral} {number : Number} {x : Scalar}
    (read : n.number? = some number) (denoted : Scalar.Denoted (.number number) x) :
    Becomes (.number n) x := by
  rcases Numeral.number?_cases read with ⟨whole, inRange, rfl⟩ | ⟨⟨finite, rfl⟩, outside⟩
  · generalize value : n.wholeValue = i at inRange denoted
    cases denoted with
    | integer i => exact .integer whole value.symm
  · cases denoted with
    | float =>
      cases whole : n.isInteger with
      | false => exact .float whole finite
      | true =>
        rcases outside whole with ⟨negative, zero⟩ | outside
        · rw [Numeral.nearest_of_minusZero whole negative zero]
          exact .minusZero whole negative zero
        · exact .beyond whole outside finite

theorem Written.becomes_of_value? {literal : Written} {value : Json} {x : Scalar}
    (read : literal.value? = some value) (denoted : Scalar.Denoted value x) :
    Becomes literal x := by
  cases literal with
  | null =>
    cases read
    cases denoted
  | bool b =>
    cases read
    cases denoted
    exact .bool b
  | string s =>
    cases read
    cases denoted
    exact .string s
  | number n =>
    obtain ⟨number, here, rfl⟩ := Option.map_eq_some_iff.1 read
    exact becomes_of_numeral here denoted
  | array items =>
    obtain ⟨values, -, rfl⟩ := Option.map_eq_some_iff.1 read
    cases denoted
  | object members =>
    obtain ⟨values, -, rfl⟩ := Option.map_eq_some_iff.1 read
    cases denoted

/-- The literals that a JSON text spells and that count. A text of blanks has none. -/
def literalsOfText (text : List Char) : List Written :=
  match Written.ofText? (Text.trim text) with
  | some written => written.literals
  | none => []

end Json

/-! ## Texts -/

/-- The text is read as JSON: in the format for it, or in the automatic one. -/
def ReadsAsJson (format : DocumentFormat) (text : List Char) (document : Json) : Prop :=
  readDocument format text = .ok document ∧
    (format = .json ∨ format = .auto ∧ (Json.ofText? (Text.trim text)).isSome = true)

section

variable {format : DocumentFormat} {text : List Char} {document : Json}

theorem ReadsAsJson.ofText?_eq (json : ReadsAsJson format text document)
    (notBlank : (Text.trim text).isEmpty = false) :
    Json.ofText? (Text.trim text) = some document := by
  obtain ⟨read, format⟩ := json
  simp only [readDocument, notBlank] at read
  cases value : Json.ofText? (Text.trim text) with
  | none =>
    rw [value] at read format
    rcases format with rfl | ⟨-, isSome⟩
    · cases read
    · cases isSome
  | some here =>
    rw [value] at read
    rcases format with rfl | ⟨rfl, -⟩
    · cases read
      rfl
    · cases read
      rfl

/-- A text that is read as JSON spells the document; blanks are read as if they spelled the empty
object. -/
theorem ReadsAsJson.exists_written (json : ReadsAsJson format text document) :
    ∃ written : Json.Written, written.value? = some document ∧
      written.literals = Json.literalsOfText text := by
  cases blank : (Text.trim text).isEmpty with
  | true =>
    have read := json.1
    simp only [readDocument, blank, if_true] at read
    cases read
    rw [List.isEmpty_iff] at blank
    refine ⟨.object [], rfl, ?_⟩
    rw [Json.literalsOfText, blank]
    rfl
  | false =>
    obtain ⟨written, spelled, value⟩ := Option.bind_eq_some_iff.1 (json.ofText?_eq blank)
    exact ⟨written, value, by rw [Json.literalsOfText, spelled]⟩

end

namespace Compiler

/-- The literals of a document that compiles become the scalars of its filter. -/
theorem becomes_of_compile {mode : Mode} {limit : Nat} {document : Json} {written : Json.Written}
    {compiled : CompiledFilter} (value : written.value? = some document)
    (compiles : compile ⟨mode, limit⟩ document = .ok compiled) :
    ∃ filter, Filter.ofJson limit document = .ok filter ∧ filter.render mode = compiled ∧
      List.Forall₂ Json.Written.Becomes written.literals filter.scalars := by
  obtain ⟨filter, accepted, rendered⟩ := exists_accept_of_compile compiles
  have read := (accept_eq_ok_iff.1 accepted).1
  refine ⟨filter, read, rendered, List.Forall₂.flip ?_⟩
  have finite := Filter.finite_of_ofJson read
  have values := Filter.scalars_of_ofJson value read
  have each := (List.forall₂_and_left _ _).2 ⟨finite, values.flip⟩
  exact each.imp fun x literal ⟨finite, value⟩ =>
    Json.Written.becomes_of_value? value (Scalar.denoted_toJson finite)

/-- A document that compiles when integers that are too large are replaced is refused for one of
them. -/
theorem compile_of_mends {mode : Mode} {limit : Nat} {document mended : Json}
    {compiled : CompiledFilter} (mends : Mends document mended)
    (compiles : compile ⟨mode, limit⟩ mended = .ok compiled) :
    document = mended ∨ ∃ path reason, reason.TooLarge ∧
      compile ⟨mode, limit⟩ document = .error (.invalid path reason) := by
  obtain ⟨filter, accepted, -⟩ := exists_accept_of_compile compiles
  have read := (accept_eq_ok_iff.1 accepted).1
  rcases Filter.ofJson_of_mends mends read with same | ⟨path, reason, large, refused⟩
  · exact .inl same
  · exact .inr ⟨path, reason, large, by rw [compile, refused]; rfl⟩

/-- **What becomes of the integers of a JSON text.** If its document compiles, each literal has
become the scalar in its place; if only integers that are too large keep it from compiling, it is
refused for one of them. -/
theorem compile_integer_literals {format : DocumentFormat} {text : List Char} {document : Json}
    (json : ReadsAsJson format text document) (mode : Mode) (limit : Nat) :
    (∀ compiled, compile ⟨mode, limit⟩ document = .ok compiled →
      ∃ filter, Filter.ofJson limit document = .ok filter ∧ filter.render mode = compiled ∧
        List.Forall₂ Json.Written.Becomes (Json.literalsOfText text) filter.scalars) ∧
    ∀ mended compiled, Mends document mended →
      compile ⟨mode, limit⟩ mended = .ok compiled →
      document = mended ∨ ∃ path reason, reason.TooLarge ∧
        compile ⟨mode, limit⟩ document = .error (.invalid path reason) := by
  obtain ⟨written, value, literals⟩ := json.exists_written
  constructor
  · intro compiled compiles
    rw [← literals]
    exact becomes_of_compile value compiles
  · intro mended compiled mends compiles
    exact compile_of_mends mends compiles

/-- The least integer stays what it is; the first one above the greatest is refused. -/
theorem compile_integer_literals_of_bounds :
    (∃ document, ReadsAsJson .auto "\x7b\"n\": -9223372036854775808\x7d".toList document ∧
      List.Forall₂ Json.Written.Becomes
        (Json.literalsOfText "\x7b\"n\": -9223372036854775808\x7d".toList)
        [.integer Int64.minValue]) ∧
    ∃ document path reason,
      ReadsAsJson .json "\x7b\"n\": 9223372036854775808\x7d".toList document ∧
      reason.TooLarge ∧ compile ⟨.escaped, 1⟩ document = .error (.invalid path reason) := by
  constructor
  · have json : ReadsAsJson .auto "\x7b\"n\": -9223372036854775808\x7d".toList
        (.object [("n", .ofInt64 Int64.minValue)]) := by
      refine ⟨?_, .inr ⟨rfl, ?_⟩⟩ <;> cbv
    have compiles := (compile_integer_literals json .parameterized 1).1
    obtain ⟨filter, read, -, each⟩ := compiles _ rfl
    cases read
    exact ⟨_, json, each⟩
  · have next : -2 ^ (63 : Nat) ≤ (2 ^ (63 : Nat) : Int) ∧
        (2 ^ (63 : Nat) : Int) < 2 ^ (64 : Nat) := by
      omega
    have json : ReadsAsJson .json "\x7b\"n\": 9223372036854775808\x7d".toList
        (.object [("n", .number (.integer (2 ^ (63 : Nat)) next))]) := by
      refine ⟨?_, .inl rfl⟩
      cbv
    have mends : Mends (.object [("n", .number (.integer (2 ^ (63 : Nat)) next))])
        (.object [("n", .ofInt64 0)]) :=
      .object rfl (.cons (.integer next le_rfl _) .nil)
    have refused := (compile_integer_literals json .escaped 1).2
    rcases refused _ _ mends rfl with same | ⟨path, reason, large, refused⟩
    · cases same
    · exact ⟨_, path, reason, json, large, refused⟩

/-- An integer beyond those of 64 bits compiles, as a floating-point number with another value. -/
theorem compile_integer_beyond :
    ∃ document number x,
      ReadsAsJson .json "\x7b\"a\": 18446744073709551617\x7d".toList document ∧
      Json.literalsOfText "\x7b\"a\": 18446744073709551617\x7d".toList = [.number number] ∧
      number.isInteger = true ∧ number.wholeValue = 2 ^ (64 : Nat) + 1 ∧
      Filter.ofJson 1 document = .ok (.compare .eq "a" (.scalar (.float x))) ∧
      (∀ mode, ∃ compiled, compile ⟨mode, 1⟩ document = .ok compiled) ∧
      x.negative = false ∧ x.significand * 2 ^ x.scale.toNat = 2 ^ (64 : Nat) := by
  let number : Json.Numeral := ⟨false, "18446744073709551617".toList, none, none⟩
  let x : Binary64 := .ofBits 0x43f0000000000000
  have spelled : Json.Written.ofText? (Text.trim "\x7b\"a\": 18446744073709551617\x7d".toList) =
      some (.object [("a", .number number)]) := by cbv
  have nearest : number.number? = some (.float x rfl) := by decide +kernel
  have value : (Json.Written.object [("a", .number number)]).value? =
      some (.object [("a", .ofBinary64 x)]) := by
    simp only [Json.Written.value?, Json.Written.members?, nearest]
    rfl
  have json : Json.ofText? (Text.trim "\x7b\"a\": 18446744073709551617\x7d".toList) =
      some (.object [("a", .ofBinary64 x)]) := by
    rw [Json.ofText?, spelled, Option.bind_some, value]
  have read : readDocument .json "\x7b\"a\": 18446744073709551617\x7d".toList =
      .ok (.object [("a", .ofBinary64 x)]) := by
    simp only [readDocument, json]
    rfl
  have whole : number.wholeValue = 2 ^ (64 : Nat) + 1 := by cbv
  have filter : Filter.ofJson 1 (.object [("a", .ofBinary64 x)]) =
      .ok (.compare .eq "a" (.scalar (.float x))) := by cbv
  refine ⟨_, number, x, ⟨read, .inl rfl⟩, ?_, rfl, whole, filter, ?_, rfl, ?_⟩
  · rw [Json.literalsOfText, spelled]
    rfl
  · intro mode
    cases mode <;> exact ⟨_, rfl⟩
  · cbv

end Compiler

end MetadataFilter
