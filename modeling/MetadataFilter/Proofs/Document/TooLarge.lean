import Mathlib.Data.List.Forall2
import Mathlib.Tactic.SplitIfs
import MetadataFilter.Filter.Document
import MetadataFilter.Proofs.Outcome

/-!
# Integers too large for a literal

A document can hold integers of 64 bits without a sign, a literal only integers with one. If it is
only for such integers that a document is no filter, because with other numbers in their places it
would be one (`Mends`), then it is refused for one of them, and named as out of range
(`Filter.ofJson_of_mends`).
-/

namespace MetadataFilter

open scoped Power

/-- The second document is the first one with other numbers in the places of some integers that
are too large for a literal. -/
inductive Mends : Json → Json → Prop
  | same (document : Json) : Mends document document
  | integer {n : Int} (inRange : -2 ^ (63 : Nat) ≤ n ∧ n < 2 ^ (64 : Nat))
      (large : 2 ^ (63 : Nat) ≤ n)
      (other : Json.Number) : Mends (.number (.integer n inRange)) (.number other)
  | array {items mended : List Json} (each : List.Forall₂ Mends items mended) :
      Mends (.array items) (.array mended)
  | object {members mended : List (String × Json)}
      (keys : members.map Prod.fst = mended.map Prod.fst)
      (each : List.Forall₂ Mends (members.map Prod.snd) (mended.map Prod.snd)) :
      Mends (.object members) (.object mended)

/-- An integer of the document is named as out of range. -/
def Reason.TooLarge (reason : Reason) : Prop :=
  ∃ n : Int, 2 ^ (63 : Nat) ≤ n ∧ n < 2 ^ (64 : Nat) ∧ reason = .integerOutOfRange n

def Fault.TooLarge (fault : Fault) : Prop :=
  ∃ path reason, reason.TooLarge ∧ fault = .refused path reason

theorem Fault.TooLarge.under {fault : Fault} (h : fault.TooLarge) (path : Path) :
    (fault.under path).TooLarge := by
  obtain ⟨inner, reason, large, rfl⟩ := h
  exact ⟨path ++ inner, reason, large, rfl⟩

/-! ## Literals -/

theorem Scalar.ofJson_of_mends {document mended : Json} {x : Scalar} (mends : Mends document mended)
    (read : Scalar.ofJson mended = .ok x) :
    document = mended ∨ ∃ reason, reason.TooLarge ∧ Scalar.ofJson document = .error reason := by
  cases mends with
  | same => exact .inl rfl
  | @integer n inRange large other =>
    refine .inr ⟨_, ⟨n, large, inRange.2, rfl⟩, ?_⟩
    have outside : ¬(Int64.minValue.toInt ≤ n ∧ n ≤ Int64.maxValue.toInt) := by
      have largest : Int64.maxValue.toInt < 2 ^ (63 : Nat) := by decide
      omega
    rw [Scalar.ofJson, dif_neg outside]
  | array => cases read
  | object => cases read

theorem Scalar.listOfJson_of_mends {items mended : List Json} {xs : List Scalar}
    (mends : List.Forall₂ Mends items mended) (read : Scalar.listOfJson mended = .ok xs) :
    items = mended ∨ ∃ reason, reason.TooLarge ∧ Scalar.listOfJson items = .error reason := by
  induction mends generalizing xs with
  | nil => exact .inl rfl
  | @cons item item' items mended head _ ih =>
    obtain ⟨x, readItem, read⟩ := bind_eq_ok_iff.1 read
    obtain ⟨rest, readRest, -⟩ := bind_eq_ok_iff.1 read
    rcases Scalar.ofJson_of_mends head readItem with rfl | ⟨reason, large, refused⟩
    · rcases ih readRest with rfl | ⟨reason, large, refused⟩
      · exact .inl rfl
      · refine .inr ⟨reason, large, ?_⟩
        rw [Scalar.listOfJson, readItem, refused]
        rfl
    · refine .inr ⟨reason, large, ?_⟩
      rw [Scalar.listOfJson, refused]
      rfl

theorem Literal.ofJson_of_mends {op : CompareOp} {document mended : Json} {literal : Literal}
    (mends : Mends document mended) (read : Literal.ofJson op mended = .ok literal) :
    document = mended ∨ ∃ reason, reason.TooLarge ∧ Literal.ofJson op document = .error reason := by
  have single (notArray : ∀ items, document ≠ .array items)
      (notArray' : ∀ items, mended ≠ .array items) :
      document = mended ∨
        ∃ reason, reason.TooLarge ∧ Literal.ofJson op document = .error reason := by
    rw [Literal.ofJson_of_ne_array op notArray'] at read
    rw [Literal.ofJson_of_ne_array op notArray]
    split_ifs at read ⊢ with set
    obtain ⟨x, read, -⟩ := map_eq_ok_iff.1 read
    rcases Scalar.ofJson_of_mends mends read with same | ⟨reason, large, refused⟩
    · exact .inl same
    · exact .inr ⟨reason, large, by rw [refused]; rfl⟩
  cases mends with
  | same => exact .inl rfl
  | integer => exact single nofun nofun
  | object => exact single nofun nofun
  | @array items mended each =>
    have empty : items.isEmpty = mended.isEmpty := by
      cases each <;> rfl
    simp only [Literal.ofJson] at read ⊢
    rw [empty]
    split_ifs at read ⊢ with set none
    obtain ⟨xs, read, -⟩ := map_eq_ok_iff.1 read
    rcases Scalar.listOfJson_of_mends each read with rfl | ⟨reason, large, refused⟩
    · exact .inl rfl
    · exact .inr ⟨reason, large, by rw [refused]; rfl⟩

namespace Filter

/-! ## Comparisons -/

theorem ofField_of_mends {op : CompareOp} {field : String} {document mended : Json}
    {filter : Filter} (mends : Mends document mended)
    (read : ofField op field mended = .ok filter) :
    document = mended ∨ ∃ fault, fault.TooLarge ∧ ofField op field document = .error fault := by
  unfold ofField at read
  split at read
  · rename_i literal readLiteral
    rcases Literal.ofJson_of_mends mends readLiteral with same | ⟨reason, large, refused⟩
    · exact .inl same
    · refine .inr ⟨_, ⟨[.key field], reason, large, rfl⟩, ?_⟩
      rw [ofField, refused]
      rfl
  · cases read

/-- What mends an object of one member mends the value of that member. -/
theorem exists_member_of_mends {members : List (String × Json)} {key : String} {value : Json}
    (keys : members.map Prod.fst = [key])
    (each : List.Forall₂ Mends (members.map Prod.snd) [value]) :
    ∃ document, members = [(key, document)] ∧ Mends document value := by
  match members with
  | [(name, document)] =>
    obtain rfl : name = key := (List.cons.inj keys).1
    cases each with
    | cons head _ => exact ⟨document, rfl, head⟩

theorem ofComparison_of_mends {op : CompareOp} {document mended : Json} {filter : Filter}
    (mends : Mends document mended) (read : ofComparison op mended = .ok filter) :
    document = mended ∨ ∃ fault, fault.TooLarge ∧ ofComparison op document = .error fault := by
  cases mends with
  | same => exact .inl rfl
  | integer => cases read
  | array => cases read
  | @object members mended keys each =>
    match mended with
    | [] => cases read
    | _ :: _ :: _ => cases read
    | [(key, value)] =>
      obtain ⟨document, rfl, mends⟩ := exists_member_of_mends keys each
      simp only [ofComparison, singleMember] at read ⊢
      split_ifs at read ⊢ with unnamed
      · cases read
      · rcases ofField_of_mends mends read with rfl | refused
        · exact .inl rfl
        · exact .inr refused

/-! ## Expressions -/

section Step

variable {levels : Nat}
  (expression : ∀ {document mended : Json} {filter : Filter}, Mends document mended →
    ofExpression levels mended = .ok filter →
    document = mended ∨ ∃ fault, fault.TooLarge ∧ ofExpression levels document = .error fault)

include expression

theorem ofItems_of_mends {items mended : List Json} {operands : List Filter} {position : Nat}
    (mends : List.Forall₂ Mends items mended)
    (read : ofItems levels position mended = .ok operands) :
    items = mended ∨ ∃ fault, fault.TooLarge ∧ ofItems levels position items = .error fault := by
  induction mends generalizing operands position with
  | nil => exact .inl rfl
  | @cons item item' items mended head _ ih =>
    obtain ⟨operand, readItem, read⟩ := bind_eq_ok_iff.1 read
    obtain ⟨rest, readRest, -⟩ := bind_eq_ok_iff.1 read
    rw [mapError_eq_ok_iff] at readItem
    rcases expression head readItem with rfl | ⟨fault, large, refused⟩
    · rcases ih readRest with rfl | ⟨fault, large, refused⟩
      · exact .inl rfl
      · refine .inr ⟨fault, large, ?_⟩
        rw [ofItems, readItem, refused]
        rfl
    · refine .inr ⟨_, large.under [.index position], ?_⟩
      rw [ofItems, refused]
      rfl

theorem ofOperands_of_mends {document mended : Json} {operands : List Filter}
    (mends : Mends document mended) (read : ofOperands levels mended = .ok operands) :
    document = mended ∨ ∃ fault, fault.TooLarge ∧ ofOperands levels document = .error fault := by
  cases mends with
  | same => exact .inl rfl
  | integer => cases read
  | object => cases read
  | @array items mended each =>
    simp only [ofOperands] at read ⊢
    rw [each.length_eq]
    split_ifs at read ⊢ with few
    · cases read
    · rcases ofItems_of_mends expression each read with rfl | refused
      · exact .inl rfl
      · exact .inr refused

theorem ofExpression_of_mends_step {document mended : Json} {filter : Filter}
    (mends : Mends document mended) (read : ofExpression (levels + 1) mended = .ok filter) :
    document = mended ∨
      ∃ fault, fault.TooLarge ∧ ofExpression (levels + 1) document = .error fault := by
  cases mends with
  | same => exact .inl rfl
  | integer => cases read
  | array => cases read
  | @object members mended keys each =>
    match mended with
    | [] => cases read
    | _ :: _ :: _ => cases read
    | [(key, value)] =>
      obtain ⟨document, rfl, mends⟩ := exists_member_of_mends keys each
      simp only [ofExpression] at read ⊢
      split_ifs at read ⊢ with unnamed
      · cases read
      cases kind : ExpressionKey.ofText key with
      | connective op =>
        simp only [kind, mapError_eq_ok_iff, map_eq_ok_iff] at read ⊢
        obtain ⟨operands, read, -⟩ := read
        rcases ofOperands_of_mends expression mends read with rfl | ⟨fault, large, refused⟩
        · exact .inl rfl
        · exact .inr ⟨_, large.under [.key key], by rw [refused]; rfl⟩
      | compare op =>
        simp only [kind, mapError_eq_ok_iff] at read ⊢
        rcases ofComparison_of_mends mends read with rfl | ⟨fault, large, refused⟩
        · exact .inl rfl
        · exact .inr ⟨_, large.under [.key key], by rw [refused]; rfl⟩
      | field =>
        simp only [kind] at read ⊢
        rcases ofField_of_mends mends read with rfl | refused
        · exact .inl rfl
        · exact .inr refused
      | unknown =>
        simp only [kind] at read
        cases read

end Step

theorem ofExpression_of_mends (levels : Nat) {document mended : Json} {filter : Filter}
    (mends : Mends document mended) (read : ofExpression levels mended = .ok filter) :
    document = mended ∨ ∃ fault, fault.TooLarge ∧ ofExpression levels document = .error fault := by
  induction levels generalizing document mended filter with
  | zero =>
    rw [ofExpression] at read
    cases read
  | succ levels ih => exact ofExpression_of_mends_step ih mends read

/-- Documents other than the empty ones are expressions. -/
theorem ofJson_of_ofExpression_of_mends {limit : Nat} {document mended : Json} {filter : Filter}
    (mends : Mends document mended)
    (direct : ofJson limit document = (ofExpression limit document).mapError (Fault.atLimit limit))
    (read : (ofExpression limit mended).mapError (Fault.atLimit limit) = .ok filter) :
    document = mended ∨ ∃ path reason, reason.TooLarge ∧
      ofJson limit document = .error (.invalid path reason) := by
  rw [mapError_eq_ok_iff] at read
  rcases ofExpression_of_mends limit mends read with same | ⟨fault, large, refused⟩
  · exact .inl same
  · obtain ⟨path, reason, large, rfl⟩ := large
    exact .inr ⟨path, reason, large, by rw [direct, refused]; rfl⟩

/-- **A document that would be a filter but for integers too large for a literal** is refused for
one of them. -/
theorem ofJson_of_mends {limit : Nat} {document mended : Json} {filter : Filter}
    (mends : Mends document mended) (read : ofJson limit mended = .ok filter) :
    document = mended ∨ ∃ path reason, reason.TooLarge ∧
      ofJson limit document = .error (.invalid path reason) := by
  cases mends with
  | same => exact .inl rfl
  | integer inRange large other =>
    exact ofJson_of_ofExpression_of_mends (.integer inRange large other) rfl read
  | array each => exact ofJson_of_ofExpression_of_mends (.array each) rfl read
  | @object members mended keys each =>
    match members, mended with
    | [], [] => exact .inl rfl
    | [], _ :: _ => cases each
    | _ :: _, [] => cases each
    | _ :: _, _ :: _ => exact ofJson_of_ofExpression_of_mends (.object keys each) rfl read

end Filter

end MetadataFilter
