import Mathlib.Data.List.Forall2
import MetadataFilter.Filter.Document
import MetadataFilter.Proofs.Filter.WellFormed

/-!
# What a filter document spells

A document **spells** a filter if it is the canonical document of the filter (`Filter.toJson`)
with two liberties (`Spells`): an equality may be written without its keyword where the field does
not begin with a dollar sign (`Abbreviates`), and the whole document may be null instead of `{}`.

`Filter.ofJson_succ_eq_ok_iff`: a document is read as a filter exactly when it spells the filter
and the filter is well formed within the same limit. So reading accepts no other document, and
what is read is what was written.

The proof has one lemma for each reader (scalar, list, literal, field, comparison, operands), each
of the form "read as `x` exactly when it is the canonical value of `x` and `x` passes its check".
-/

namespace MetadataFilter

/-- `Abbreviates document shorter`: an expression `document`, and the same expression in which any
number of the equalities `{"$eq": {field: value}}`, the field not beginning with a dollar sign, are
written `{field: value}`. -/
inductive Abbreviates : Json → Json → Prop
  | same (document : Json) : Abbreviates document document
  | equality (field : String) (value : Json) (plain : field.toList.head? ≠ some '$') :
      Abbreviates (.object [(CompareOp.eq.keyword, .object [(field, value)])])
        (.object [(field, value)])
  | operands (op : Connective) (items shorter : List Json)
      (each : List.Forall₂ Abbreviates items shorter) :
      Abbreviates (.object [(op.keyword, .array items)]) (.object [(op.keyword, .array shorter)])

/-- `Spells document filter`: the canonical document of the filter, or an abbreviation of it, or
null in place of the empty object. -/
def Spells (document : Json) (filter : Filter) : Prop :=
  Abbreviates filter.toJson document ∨ document = .null ∧ filter.toJson = .object []

/-! ## Scalars and literals -/

theorem Scalar.toJson_ne_array (x : Scalar) (items : List Json) : x.toJson ≠ .array items := by
  cases x with
  | float x =>
    intro h
    simp only [Scalar.toJson, Json.ofBinary64] at h
    split at h <;> cases h
  | _ => nofun

theorem Scalar.ofJson_toJson (x : Scalar) (h : x.check = .ok ()) :
    Scalar.ofJson x.toJson = .ok x := by
  cases x with
  | string s => rfl
  | bool b => rfl
  | integer n =>
    have inRange : Int64.minValue.toInt ≤ n.toInt ∧ n.toInt ≤ Int64.maxValue.toInt :=
      ⟨n.minValue_le_toInt, n.toInt_le⟩
    rw [Scalar.toJson, Json.ofInt64, Scalar.ofJson, dif_pos inRange, Int64.ofIntLE_toInt]
  | float x =>
    have finite : x.isFinite = true := by
      by_contra hx
      simp [Scalar.check, hx] at h
    simp [Scalar.toJson, Json.ofBinary64, Scalar.ofJson, finite]

theorem Scalar.eq_toJson_of_ofJson {value : Json} {x : Scalar} (h : Scalar.ofJson value = .ok x) :
    value = x.toJson ∧ x.check = .ok () := by
  match value with
  | .string s | .bool b => cases h; exact ⟨rfl, rfl⟩
  | .number (.integer n _) =>
    simp only [Scalar.ofJson] at h
    split at h
    · cases h
      simp [Scalar.toJson, Json.ofInt64, Scalar.check]
    · cases h
  | .number (.float x finite) =>
    cases h
    simp [Scalar.toJson, Json.ofBinary64, Scalar.check, finite]
  | .null | .array _ | .object _ => cases h

theorem Scalar.ofJson_eq_ok_iff (value : Json) (x : Scalar) :
    Scalar.ofJson value = .ok x ↔ value = x.toJson ∧ x.check = .ok () := by
  constructor
  · exact Scalar.eq_toJson_of_ofJson
  · rintro ⟨rfl, h⟩
    exact Scalar.ofJson_toJson x h

theorem Scalar.listOfJson_eq_ok_iff (items : List Json) (xs : List Scalar) :
    Scalar.listOfJson items = .ok xs ↔
      items = xs.map Scalar.toJson ∧ Scalar.checkAll xs = .ok () := by
  induction items generalizing xs with
  | nil => cases xs <;> simp [Scalar.listOfJson, Scalar.checkAll]
  | cons item items ih =>
    cases xs with
    | nil => simp [Scalar.listOfJson, bind_eq_ok_iff, pure, Except.pure]
    | cons x xs =>
      simp only [Scalar.checkAll, check_bind_eq_ok_iff]
      simp only [Scalar.listOfJson, bind_eq_ok_iff, pure, Except.pure, Except.ok.injEq,
        List.cons.injEq, ih, Scalar.ofJson_eq_ok_iff, List.map_cons]
      constructor
      · rintro ⟨_, ⟨rfl, hx⟩, _, ⟨rfl, hxs⟩, rfl, rfl⟩
        exact ⟨⟨rfl, rfl⟩, hx, hxs⟩
      · rintro ⟨⟨rfl, rfl⟩, hx, hxs⟩
        exact ⟨x, ⟨rfl, hx⟩, xs, ⟨rfl, hxs⟩, rfl, rfl⟩

theorem Literal.ofJson_eq_ok_iff (op : CompareOp) (value : Json) (literal : Literal) :
    Literal.ofJson op value = .ok literal ↔ value = literal.toJson ∧ literal.check op = .ok () := by
  by_cases isArray : ∃ items, value = .array items
  · obtain ⟨items, rfl⟩ := isArray
    cases literal with
    | scalar x =>
      have hx : Json.array items ≠ x.toJson := (x.toJson_ne_array items).symm
      simp only [Literal.ofJson, Literal.toJson, hx, false_and, iff_false]
      split_ifs <;> simp [map_eq_ok_iff]
    | list xs =>
      simp only [Literal.ofJson, Literal.toJson, Literal.check, Json.array.injEq]
      by_cases hop : op.isSet
      · simp only [hop, if_true]
        cases items with
        | nil => cases xs <;> simp
        | cons item items =>
          simp only [List.isEmpty_cons, Bool.false_eq_true, if_false, map_eq_ok_iff,
            Literal.list.injEq, exists_eq_right, Scalar.listOfJson_eq_ok_iff]
          cases xs <;> simp
      · simp [hop]
  · have notArray : ∀ items, value ≠ .array items := fun items h => isArray ⟨items, h⟩
    rw [Literal.ofJson.eq_def]
    split
    · exact absurd rfl (notArray _)
    cases literal with
    | list xs => 
      simp only [Literal.toJson, notArray, false_and, iff_false]
      split_ifs <;> simp [map_eq_ok_iff]
    | scalar x =>
      simp only [Literal.toJson, Literal.check]
      by_cases hop : op.isSet
      · simp [hop]
      · simp [hop, map_eq_ok_iff, Scalar.ofJson_eq_ok_iff]

/-! ## Comparisons -/

theorem Filter.ofField_eq_ok_iff (op : CompareOp) (field : String) (value : Json)
    (filter : Filter) :
    Filter.ofField op field value = .ok filter ↔
      ∃ literal, filter = .compare op field literal ∧ value = literal.toJson ∧
        literal.check op = .ok () := by
  have read := Literal.ofJson_eq_ok_iff op value
  unfold Filter.ofField
  cases h : Literal.ofJson op value with
  | error reason =>
    have none (literal : Literal) : ¬(value = literal.toJson ∧ literal.check op = .ok ()) :=
      mt (read literal).2 (by simp [h])
    simp only [Filter.refuse, reduceCtorEq, false_iff, not_exists, not_and]
    exact fun literal _ hv => not_and.1 (none literal) hv
  | ok literal =>
    obtain ⟨hv, hc⟩ := (read literal).1 h
    simp only [Except.ok.injEq]
    constructor
    · rintro rfl
      exact ⟨literal, rfl, hv, hc⟩
    · rintro ⟨other, rfl, hv', hc'⟩
      have same : Except.ok literal = Except.ok other := h.symm.trans ((read other).2 ⟨hv', hc'⟩)
      rw [Except.ok.inj same]

theorem Filter.singleMember_eq_ok_iff (members : List (String × Json)) (field : String)
    (value : Json) :
    Filter.singleMember members = .ok (field, value) ↔
      members = [(field, value)] ∧ field.isEmpty = false := by
  match members with
  | [] => simp [Filter.singleMember]
  | [member] =>
    simp only [Filter.singleMember, List.cons.injEq, and_true]
    by_cases h : member.1.isEmpty
    · simp only [h, if_true, reduceCtorEq, false_iff, not_and]
      rintro rfl
      simpa using h
    · simp only [h, Bool.false_eq_true, if_false, Except.ok.injEq]
      constructor
      · rintro rfl
        exact ⟨rfl, by simpa using h⟩
      · exact And.left
  | _ :: _ :: _ => simp [Filter.singleMember]

/-- Below a keyword stands exactly the canonical object of one field and its literal. -/
theorem Filter.ofComparison_eq_ok_iff (op : CompareOp) (value : Json) (filter : Filter) :
    Filter.ofComparison op value = .ok filter ↔
      ∃ field literal, filter = .compare op field literal ∧
        value = .object [(field, literal.toJson)] ∧
        Filter.checkComparison op field literal = .ok () := by
  match value with
  | .null | .bool _ | .number _ | .string _ | .array _ => simp [Filter.ofComparison, Filter.refuse]
  | .object members =>
    cases h : Filter.singleMember members with
    | error reason =>
      have several : ∀ field value, members = [(field, value)] → field.isEmpty = true := by
        intro field value hm
        by_contra he
        have := (Filter.singleMember_eq_ok_iff members field value).2 ⟨hm, by simpa using he⟩
        simp [h] at this
      simp only [Filter.ofComparison, h, Filter.refuse, reduceCtorEq, false_iff]
      rintro ⟨field, literal, -, hm, hc⟩
      have empty := several field literal.toJson (by simpa using hm)
      simp [Filter.checkComparison, empty] at hc
    | ok member =>
      obtain ⟨field, value⟩ := member
      obtain ⟨rfl, named⟩ := (Filter.singleMember_eq_ok_iff members field value).1 h
      simp only [Filter.ofComparison, h, Filter.ofField_eq_ok_iff]
      constructor
      · rintro ⟨literal, rfl, rfl, hc⟩
        exact ⟨field, literal, rfl, rfl, by simpa [Filter.checkComparison, named] using hc⟩
      · rintro ⟨field', literal, rfl, hm, hc⟩
        obtain ⟨rfl, rfl⟩ : field = field' ∧ value = literal.toJson := by simpa using hm
        exact ⟨literal, rfl, rfl, by simpa [Filter.checkComparison, named] using hc⟩

/-! ## Keys -/

theorem Connective.eq_keyword_of_ofKeyword? {key : String} {op : Connective}
    (h : Connective.ofKeyword? key = some op) : key = op.keyword := by
  unfold Connective.ofKeyword? at h
  have found := List.find?_some h
  exact (beq_iff_eq.1 found).symm

theorem CompareOp.eq_keyword_of_ofKeyword? {key : String} {op : CompareOp}
    (h : CompareOp.ofKeyword? key = some op) : key = op.keyword := by
  unfold CompareOp.ofKeyword? at h
  have found := List.find?_some h
  exact (beq_iff_eq.1 found).symm

theorem Connective.keyword_injective {op op' : Connective} (h : op.keyword = op'.keyword) :
    op = op' :=
  Option.some.inj (by rw [← ofKeyword?_keyword, h, ofKeyword?_keyword])

theorem CompareOp.keyword_injective {op op' : CompareOp} (h : op.keyword = op'.keyword) :
    op = op' :=
  Option.some.inj (by rw [← ofKeyword?_keyword, h, ofKeyword?_keyword])

@[simp] theorem ExpressionKey.ofText_connective (op : Connective) :
    ExpressionKey.ofText op.keyword = .connective op := by
  simp [ExpressionKey.ofText, Connective.ofKeyword?_keyword]

@[simp] theorem ExpressionKey.ofText_compare (op : CompareOp) :
    ExpressionKey.ofText op.keyword = .compare op := by
  have notConnective : Connective.ofKeyword? op.keyword = none := by cases op <;> decide
  simp [ExpressionKey.ofText, notConnective, CompareOp.ofKeyword?_keyword]

@[simp] theorem Connective.keyword_isEmpty (op : Connective) : op.keyword.isEmpty = false := by
  cases op <;> decide

@[simp] theorem CompareOp.keyword_isEmpty (op : CompareOp) : op.keyword.isEmpty = false := by
  cases op <;> decide

theorem Connective.keyword_head (op : Connective) : op.keyword.toList.head? = some '$' := by
  cases op <;> decide

theorem CompareOp.keyword_head (op : CompareOp) : op.keyword.toList.head? = some '$' := by
  cases op <;> decide

/-- What each reading of a key says about the key. -/
theorem ExpressionKey.ofText_cases (key : String) :
    (∃ op : Connective, key = op.keyword) ∨ (∃ op : CompareOp, key = op.keyword) ∨
      (ExpressionKey.ofText key = .field ∧ key.toList.head? ≠ some '$') ∨
      (ExpressionKey.ofText key = .unknown ∧ key.toList.head? = some '$') := by
  cases hc : Connective.ofKeyword? key with
  | some op => exact .inl ⟨op, Connective.eq_keyword_of_ofKeyword? hc⟩
  | none =>
    cases ho : CompareOp.ofKeyword? key with
    | some op => exact .inr (.inl ⟨op, CompareOp.eq_keyword_of_ofKeyword? ho⟩)
    | none =>
      by_cases dollar : key.toList.head? = some '$'
      · exact .inr (.inr (.inr ⟨by simp [ExpressionKey.ofText, hc, ho, dollar], dollar⟩))
      · exact .inr (.inr (.inl ⟨by simp [ExpressionKey.ofText, hc, ho, dollar], dollar⟩))

theorem ExpressionKey.ofText_eq_field_iff (key : String) :
    ExpressionKey.ofText key = .field ↔ key.toList.head? ≠ some '$' := by
  rcases ExpressionKey.ofText_cases key with ⟨op, rfl⟩ | ⟨op, rfl⟩ | ⟨h, h'⟩ | ⟨h, h'⟩
  · simp [Connective.keyword_head]
  · simp [CompareOp.keyword_head]
  · simp [h, h']
  · simp [h, h']

/-! ## Abbreviated documents -/

theorem Filter.toJsonAll_eq_map (operands : List Filter) :
    Filter.toJsonAll operands = operands.map Filter.toJson := by
  induction operands with
  | nil => rfl
  | cons operand rest ih => rw [Filter.toJsonAll, ih, List.map_cons]

theorem abbreviates_compare_iff (op : CompareOp) (field : String) (literal : Literal)
    (document : Json) :
    Abbreviates (Filter.compare op field literal).toJson document ↔
      document = .object [(op.keyword, .object [(field, literal.toJson)])] ∨
        op = .eq ∧ field.toList.head? ≠ some '$' ∧
          document = .object [(field, literal.toJson)] := by
  rw [Filter.toJson]
  constructor
  · intro h
    generalize hd : Json.object [(op.keyword, .object [(field, literal.toJson)])] = d at h
    cases h with
    | same => exact .inl rfl
    | equality field' value plain =>
      simp only [Json.object.injEq, List.cons.injEq, Prod.mk.injEq, and_true] at hd
      obtain ⟨hop, rfl, rfl⟩ := hd
      exact .inr ⟨CompareOp.keyword_injective hop, plain, rfl⟩
    | operands => simp at hd
  · rintro (rfl | ⟨rfl, plain, rfl⟩)
    · exact .same _
    · exact .equality _ _ plain

theorem forall₂_abbreviates_same (documents : List Json) :
    List.Forall₂ Abbreviates documents documents :=
  List.forall₂_same.2 fun document _ => .same document

theorem abbreviates_combine_iff (op : Connective) (operands : List Filter) (document : Json) :
    Abbreviates (Filter.combine op operands).toJson document ↔
      ∃ items, document = .object [(op.keyword, .array items)] ∧
        List.Forall₂ (fun filter item => Abbreviates filter.toJson item) operands items := by
  rw [Filter.toJson, Filter.toJsonAll_eq_map]
  constructor
  · intro h
    generalize hd : Json.object [(op.keyword, .array (operands.map Filter.toJson))] = d at h
    cases h with
    | same => exact ⟨_, hd.symm, List.forall₂_map_left_iff.1 (forall₂_abbreviates_same _)⟩
    | equality field value plain => simp at hd
    | operands op' items shorter each =>
      simp only [Json.object.injEq, List.cons.injEq, Prod.mk.injEq, Json.array.injEq,
        and_true] at hd
      obtain ⟨hop, rfl⟩ := hd
      exact ⟨shorter, by rw [hop], List.forall₂_map_left_iff.1 each⟩
  · rintro ⟨items, rfl, each⟩
    exact .operands op _ items (List.forall₂_map_left_iff.2 each)

/-! ## Expressions -/

/-- `Expresses levels document filter`: the document spells the filter, as an expression below the
root, and the filter may stand there. -/
def Expresses (levels : Nat) (document : Json) (filter : Filter) : Prop :=
  Abbreviates filter.toJson document ∧ Filter.check levels filter = .ok ()

section Step

variable {levels : Nat}
  (expression : ∀ document filter,
    Filter.ofExpression levels document = .ok filter ↔ Expresses levels document filter)

include expression

theorem Filter.ofItems_eq_ok_iff (items : List Json) (operands : List Filter) (position : Nat) :
    Filter.ofItems levels position items = .ok operands ↔
      List.Forall₂ (fun filter item => Abbreviates filter.toJson item) operands items ∧
        Filter.checkOperands levels position operands = .ok () := by
  induction items generalizing operands position with
  | nil => cases operands <;> simp [Filter.ofItems, Filter.checkOperands]
  | cons item items ih =>
    cases operands with
    | nil => simp [Filter.ofItems, bind_eq_ok_iff, pure, Except.pure]
    | cons operand operands =>
      simp only [Filter.checkOperands, check_bind_eq_ok_iff]
      simp only [Filter.ofItems, bind_eq_ok_iff, mapError_eq_ok_iff, expression, ih, pure,
        Except.pure, Except.ok.injEq, List.cons.injEq, List.forall₂_cons]
      constructor
      · rintro ⟨_, ⟨spelled, checked⟩, _, ⟨each, all⟩, rfl, rfl⟩
        exact ⟨⟨spelled, each⟩, checked, all⟩
      · rintro ⟨⟨spelled, each⟩, checked, all⟩
        exact ⟨operand, ⟨spelled, checked⟩, operands, ⟨each, all⟩, rfl, rfl⟩

theorem Filter.ofOperands_eq_ok_iff (value : Json) (operands : List Filter) :
    Filter.ofOperands levels value = .ok operands ↔
      ∃ items, value = .array items ∧ 2 ≤ operands.length ∧
        List.Forall₂ (fun filter item => Abbreviates filter.toJson item) operands items ∧
        Filter.checkOperands levels 0 operands = .ok () := by
  cases value with
  | array items =>
    have read := Filter.ofItems_eq_ok_iff expression items operands 0
    simp only [Filter.ofOperands, Json.array.injEq, exists_eq_left', ← read]
    by_cases few : items.length < 2
    · simp only [few, if_true, Filter.refuse, reduceCtorEq, false_iff, not_and, read]
      intro many each
      have := each.length_eq
      omega
    · simp only [few, if_false, read, iff_and_self]
      intro ⟨each, _⟩
      have := each.length_eq
      omega
  | _ => simp [Filter.ofOperands, Filter.refuse]

end Step

theorem Filter.expresses_of_ofExpression {levels : Nat}
    (expression : ∀ document filter,
      Filter.ofExpression levels document = .ok filter ↔ Expresses levels document filter)
    {document : Json} {filter : Filter}
    (h : Filter.ofExpression (levels + 1) document = .ok filter) :
    Expresses (levels + 1) document filter := by
  match document with
  | .null | .bool _ | .number _ | .string _ | .array _ | .object [] | .object (_ :: _ :: _) =>
    simp [Filter.ofExpression, Filter.refuse] at h
  | .object [(key, value)] =>
    simp only [Filter.ofExpression] at h
    split at h
    · simp [Filter.refuse] at h
    rename_i named
    rcases ExpressionKey.ofText_cases key with ⟨op, rfl⟩ | ⟨op, rfl⟩ | ⟨hk, plain⟩ | ⟨hk, -⟩
    · simp only [ExpressionKey.ofText_connective, mapError_eq_ok_iff, map_eq_ok_iff,
        Filter.ofOperands_eq_ok_iff expression] at h
      obtain ⟨operands, ⟨items, rfl, many, each, checked⟩, rfl⟩ := h
      refine ⟨(abbreviates_combine_iff ..).2 ⟨items, rfl, each⟩, ?_⟩
      simp [Filter.check, Nat.not_lt.2 many, checked]
    · simp only [ExpressionKey.ofText_compare, mapError_eq_ok_iff,
        Filter.ofComparison_eq_ok_iff] at h
      obtain ⟨field, literal, rfl, rfl, checked⟩ := h
      refine ⟨(abbreviates_compare_iff ..).2 (.inl rfl), ?_⟩
      simp [Filter.check, checked]
    · simp only [hk, Filter.ofField_eq_ok_iff] at h
      obtain ⟨literal, rfl, rfl, checked⟩ := h
      refine ⟨(abbreviates_compare_iff ..).2 (.inr ⟨rfl, plain, rfl⟩), ?_⟩
      simp [Filter.check, Filter.checkComparison, named, checked]
    · simp [hk, Filter.refuse] at h

theorem Filter.ofExpression_of_expresses {levels : Nat}
    (expression : ∀ document filter,
      Filter.ofExpression levels document = .ok filter ↔ Expresses levels document filter)
    {document : Json} {filter : Filter} (h : Expresses (levels + 1) document filter) :
    Filter.ofExpression (levels + 1) document = .ok filter := by
  obtain ⟨spelled, checked⟩ := h
  cases filter with
  | always => simp [Filter.check] at checked
  | compare op field literal =>
    simp only [Filter.check, mapError_eq_ok_iff] at checked
    rcases (abbreviates_compare_iff ..).1 spelled with rfl | ⟨rfl, plain, rfl⟩
    · have read := (Filter.ofComparison_eq_ok_iff op _ _).2 ⟨field, literal, rfl, rfl, checked⟩
      simp [Filter.ofExpression, read]
    · have named : field.isEmpty = false := by
        by_contra empty
        rw [Filter.checkComparison, if_pos (by simpa using empty)] at checked
        cases checked
      simp only [Filter.checkComparison, named, Bool.false_eq_true, if_false] at checked
      have read := (Filter.ofField_eq_ok_iff .eq field _ _).2 ⟨literal, rfl, rfl, checked⟩
      have key := (ExpressionKey.ofText_eq_field_iff field).2 plain
      simp [Filter.ofExpression, named, key, read]
  | combine op operands =>
    obtain ⟨items, rfl, each⟩ := (abbreviates_combine_iff ..).1 spelled
    simp only [Filter.check] at checked
    split at checked
    · cases checked
    rename_i many
    rw [mapError_eq_ok_iff] at checked
    have read := (Filter.ofOperands_eq_ok_iff expression _ _).2
      ⟨items, rfl, Nat.not_lt.1 many, each, checked⟩
    simp [Filter.ofExpression, read, Except.map]

/-- An expression is read as a filter exactly when it spells the filter and the filter may stand
there: the same number of levels bounds both. -/
theorem Filter.ofExpression_eq_ok_iff (levels : Nat) (document : Json) (filter : Filter) :
    Filter.ofExpression levels document = .ok filter ↔ Expresses levels document filter := by
  induction levels generalizing document filter with
  | zero => simp [Filter.ofExpression, Expresses, Filter.check]
  | succ levels ih =>
    exact ⟨Filter.expresses_of_ofExpression ih, Filter.ofExpression_of_expresses ih⟩

/-! ## Documents -/

theorem abbreviates_empty_iff (document : Json) :
    Abbreviates (.object []) document ↔ document = .object [] := by
  constructor
  · intro h
    cases h
    rfl
  · rintro rfl
    exact .same _

theorem spells_always_iff (document : Json) :
    Spells document .always ↔ document = .object [] ∨ document = .null := by
  simp [Spells, Filter.toJson, abbreviates_empty_iff]

theorem spells_iff_abbreviates {filter : Filter} (h : filter ≠ .always) (document : Json) :
    Spells document filter ↔ Abbreviates filter.toJson document := by
  cases filter with
  | always => exact absurd rfl h
  | compare => simp [Spells, Filter.toJson]
  | combine => simp [Spells, Filter.toJson]

/-- What spells a filter other than `always` is an object with one member. -/
theorem exists_member_of_spells {filter : Filter} (h : filter ≠ .always) {document : Json}
    (spelled : Spells document filter) : ∃ member, document = .object [member] := by
  rw [spells_iff_abbreviates h] at spelled
  cases filter with
  | always => exact absurd rfl h
  | compare =>
    rcases (abbreviates_compare_iff ..).1 spelled with rfl | ⟨-, -, rfl⟩ <;> exact ⟨_, rfl⟩
  | combine =>
    obtain ⟨items, rfl, -⟩ := (abbreviates_combine_iff ..).1 spelled
    exact ⟨_, rfl⟩

/-- A document that stands for `always` is read as `always`, whatever the limit. -/
theorem Filter.ofJson_of_spells_always {document : Json} (h : Spells document .always)
    (limit : Nat) : Filter.ofJson limit document = .ok .always := by
  rcases (spells_always_iff document).1 h with rfl | rfl <;> rfl

/-- Any other document is read as an expression. -/
theorem Filter.ofJson_of_not_spells_always {document : Json} (h : ¬Spells document .always)
    (limit : Nat) (filter : Filter) :
    Filter.ofJson limit document = .ok filter ↔ Expresses limit document filter := by
  rw [spells_always_iff, not_or] at h
  rw [← Filter.ofExpression_eq_ok_iff]
  unfold Filter.ofJson
  split
  · exact absurd rfl h.2
  · exact absurd rfl h.1
  · exact mapError_eq_ok_iff

theorem Filter.ofJson_succ_eq_ok_iff (limit : Nat) (document : Json) (filter : Filter) :
    Filter.ofJson (limit + 1) document = .ok filter ↔
      Spells document filter ∧ filter.validate (limit + 1) = .ok () := by
  by_cases always : filter = .always
  · subst always
    by_cases h : Spells document .always
    · simp [Filter.ofJson_of_spells_always h, h, Filter.validate]
    · simp [Filter.ofJson_of_not_spells_always h, h, Expresses, Filter.check]
  · by_cases h : Spells document .always
    · have other : ¬Spells document filter := by
        intro spelled
        obtain ⟨member, rfl⟩ := exists_member_of_spells always spelled
        simp [spells_always_iff] at h
      simp [Filter.ofJson_of_spells_always h, other, Ne.symm always]
    · rw [Filter.ofJson_of_not_spells_always h, Expresses, spells_iff_abbreviates always,
        Filter.validate_of_ne_always always]

theorem Filter.ofJson_zero_eq_ok_iff (document : Json) (filter : Filter) :
    Filter.ofJson 0 document = .ok filter ↔
      (document = .null ∨ document = .object []) ∧ filter = .always := by
  rw [or_comm, ← spells_always_iff]
  by_cases h : Spells document .always
  · simp [Filter.ofJson_of_spells_always h, h, eq_comm]
  · simp [Filter.ofJson_of_not_spells_always h, h, Expresses, Filter.check]

theorem Filter.always_or_wellFormed_of_ofJson {limit : Nat} {document : Json} {filter : Filter}
    (read : Filter.ofJson limit document = .ok filter) : filter = .always ∨ filter.WellFormed := by
  cases limit with
  | zero => exact .inl ((Filter.ofJson_zero_eq_ok_iff document filter).1 read).2
  | succ limit =>
    exact Filter.always_or_wellFormed
      ((Filter.ofJson_succ_eq_ok_iff limit document filter).1 read).2

theorem Filter.spells_of_ofJson {limit : Nat} {document : Json} {filter : Filter}
    (read : Filter.ofJson limit document = .ok filter) : Spells document filter := by
  cases limit with
  | zero =>
    obtain ⟨empty, rfl⟩ := (Filter.ofJson_zero_eq_ok_iff document filter).1 read
    exact (spells_always_iff document).2 empty.symm
  | succ limit => exact ((Filter.ofJson_succ_eq_ok_iff limit document filter).1 read).1

/-- **Reading accepts exactly the documents that spell a well-formed filter**, and gives that
filter. With no level at all, only the filter without constraint can be read. -/
theorem Filter.ofJson_eq_ok_iff_spells (limit : Nat) (document : Json) (filter : Filter) :
    (Filter.ofJson (limit + 1) document = .ok filter ↔
      Spells document filter ∧ filter.validate (limit + 1) = .ok ()) ∧
    (Filter.ofJson 0 document = .ok filter ↔
      (document = .null ∨ document = .object []) ∧ filter = .always) :=
  ⟨Filter.ofJson_succ_eq_ok_iff limit document filter, Filter.ofJson_zero_eq_ok_iff document filter⟩

end MetadataFilter
