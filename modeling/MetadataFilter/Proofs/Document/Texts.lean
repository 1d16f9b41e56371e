import MetadataFilter.Compiler
import MetadataFilter.Proofs.Compiler.Quoting
import MetadataFilter.Proofs.Document.Spelling

/-!
# Where the texts of an answer come from

Whatever a compiler makes of a document, a filter or an error, shows texts of the document only:
every field name and every string of the filter, and every key that an error names, is a key or a
string of the document, or the keyword of an operator (`Compiler.accept_texts`).
-/

namespace MetadataFilter

/-! ## Texts -/

namespace Json

mutual

/-- The strings and keys of a document. -/
def texts : Json → List String
  | .string s => [s]
  | .array items => textsOfItems items
  | .object members => textsOfMembers members
  | .null | .bool _ | .number _ => []

def textsOfItems : List Json → List String
  | [] => []
  | item :: rest => item.texts ++ textsOfItems rest

def textsOfMembers : List (String × Json) → List String
  | [] => []
  | (key, value) :: rest => key :: value.texts ++ textsOfMembers rest

end

theorem texts_object_singleton (key : String) (value : Json) :
    (object [(key, value)]).texts = key :: value.texts := by
  rw [texts, textsOfMembers, textsOfMembers, List.append_nil]

theorem keys_subset_texts (members : List (String × Json)) :
    members.map Prod.fst ⊆ textsOfMembers members := by
  induction members with
  | nil => exact List.Subset.refl _
  | cons member rest ih =>
    intro key mem
    rcases List.mem_cons.1 mem with rfl | mem
    · exact List.mem_cons_self
    · exact List.mem_cons_of_mem _ (List.mem_append_right _ (ih mem))

end Json

/-- The keys on a path. -/
def Path.keys (path : Path) : List String :=
  path.flatMap fun
    | .key name => [name]
    | .index _ => []

theorem Path.keys_append (p q : Path) : Path.keys (p ++ q) = p.keys ++ q.keys :=
  List.flatMap_append

/-- The keys that a reason names. -/
def Reason.keys : Reason → List String
  | .severalKeys keys => keys
  | .unknownOperator key => [key]
  | _ => []

def Fault.keys : Fault → List String
  | .tooDeep => []
  | .refused path reason => path.keys ++ reason.keys

def FilterError.keys : FilterError → List String
  | .depthExceeded _ => []
  | .invalid path reason => path.keys ++ reason.keys

theorem Fault.keys_under_key (key : String) (fault : Fault) :
    (fault.under [.key key]).keys ⊆ key :: fault.keys := by
  cases fault with
  | tooDeep => exact List.nil_subset _
  | refused path reason => exact List.Subset.refl _

theorem Fault.keys_under_index (position : Nat) (fault : Fault) :
    (fault.under [.index position]).keys = fault.keys := by
  cases fault <;> rfl

theorem Fault.keys_atLimit (limit : Nat) (fault : Fault) :
    (fault.atLimit limit).keys = fault.keys := by
  cases fault <;> rfl

/-- The keywords of all operators. -/
def operatorKeywords : List String :=
  CompareOp.all.map CompareOp.keyword ++ Connective.all.map Connective.keyword

theorem CompareOp.keyword_mem_operatorKeywords (op : CompareOp) :
    op.keyword ∈ operatorKeywords := by
  cases op <;> decide

theorem Connective.keyword_mem_operatorKeywords (op : Connective) :
    op.keyword ∈ operatorKeywords := by
  cases op <;> decide

/-- The texts of an outcome: those of the value, or the keys that its fault names. -/
def Fault.outcomeTexts {α : Type} (texts : α → List String) : Except Fault α → List String
  | .ok a => texts a
  | .error fault => fault.keys

theorem Fault.outcomeTexts_under_key {α : Type} (texts : α → List String) (key : String)
    (outcome : Except Fault α) :
    outcomeTexts texts (outcome.mapError (Fault.under [.key key])) ⊆
      key :: outcomeTexts texts outcome := by
  cases outcome with
  | error fault => exact fault.keys_under_key key
  | ok a => exact List.subset_cons_self key (texts a)

/-! ## Literals -/

theorem Scalar.texts_toJson (x : Scalar) : x.toJson.texts = x.texts := by
  cases x with
  | float x =>
    simp only [Scalar.toJson, Json.ofBinary64]
    split <;> rfl
  | _ => rfl

theorem Literal.texts_toJson (value : Literal) :
    value.toJson.texts = value.scalars.flatMap Scalar.texts := by
  cases value with
  | scalar x => rw [toJson, x.texts_toJson, scalars, List.flatMap_singleton]
  | list xs =>
    rw [toJson, Json.texts, scalars]
    induction xs with
    | nil => rfl
    | cons x rest ih => rw [List.map_cons, Json.textsOfItems, ih, x.texts_toJson, List.flatMap_cons]

theorem Scalar.keys_of_ofJson {value : Json} {reason : Reason}
    (h : Scalar.ofJson value = .error reason) : reason.keys = [] := by
  match value with
  | .string _ | .bool _ | .number (.float _ _) => cases h
  | .null | .array _ | .object _ => cases h; rfl
  | .number (.integer n _) =>
    simp only [Scalar.ofJson] at h
    split at h
    · cases h
    · cases h
      rfl

theorem Scalar.keys_of_listOfJson {items : List Json} {reason : Reason}
    (h : Scalar.listOfJson items = .error reason) : reason.keys = [] := by
  induction items with
  | nil => cases h
  | cons item rest ih =>
    unfold Scalar.listOfJson at h
    cases first : Scalar.ofJson item with
    | error e =>
      rw [first] at h
      cases h
      exact Scalar.keys_of_ofJson first
    | ok x =>
      rw [first] at h
      cases others : Scalar.listOfJson rest with
      | error e =>
        rw [others] at h
        cases h
        exact ih others
      | ok xs =>
        rw [others] at h
        cases h

/-- What is wrong with a literal is said without any key. -/
theorem Literal.keys_of_ofJson {op : CompareOp} {value : Json} {reason : Reason}
    (h : Literal.ofJson op value = .error reason) : reason.keys = [] := by
  by_cases isArray : ∃ items, value = .array items
  · obtain ⟨items, rfl⟩ := isArray
    simp only [Literal.ofJson] at h
    split at h
    · split at h
      · cases h
        rfl
      · cases members : Scalar.listOfJson items with
        | error e =>
          rw [members] at h
          cases h
          exact Scalar.keys_of_listOfJson members
        | ok xs =>
          rw [members] at h
          cases h
    · cases h
      rfl
  · rw [Literal.ofJson_of_ne_array op fun items eq => isArray ⟨items, eq⟩] at h
    split at h
    · cases h
      rfl
    · cases scalar : Scalar.ofJson value with
      | error e =>
        rw [scalar] at h
        cases h
        exact Scalar.keys_of_ofJson scalar
      | ok x =>
        rw [scalar] at h
        cases h

namespace Filter

open Fault (outcomeTexts outcomeTexts_under_key)

/-! ## Expressions -/

theorem ofField_texts (op : CompareOp) (field : String) (value : Json) :
    outcomeTexts (quotedTexts .escaped) (ofField op field value) ⊆ field :: value.texts := by
  unfold ofField
  cases read : Literal.ofJson op value with
  | ok literal =>
    obtain ⟨rfl, -⟩ := (Literal.ofJson_eq_ok_iff op value literal).1 read
    rw [literal.texts_toJson]
    exact List.Subset.refl _
  | error reason =>
    have none : reason.keys = [] := Literal.keys_of_ofJson read
    simp [refuse, outcomeTexts, Fault.keys, Path.keys, none]

theorem ofComparison_texts (op : CompareOp) (value : Json) :
    outcomeTexts (quotedTexts .escaped) (ofComparison op value) ⊆ value.texts := by
  match value with
  | .null | .bool _ | .number _ | .string _ | .array _ => exact List.nil_subset _
  | .object [] => exact List.nil_subset _
  | .object [(field, value)] =>
    rw [Json.texts_object_singleton]
    simp only [ofComparison, singleMember]
    by_cases empty : field.isEmpty = true
    · rw [if_pos empty]
      exact List.nil_subset _
    · rw [if_neg empty]
      exact ofField_texts op field value
  | .object (first :: second :: rest) => exact Json.keys_subset_texts (first :: second :: rest)

section Step

variable {levels : Nat}
  (expression : ∀ document : Json,
    outcomeTexts (quotedTexts .escaped) (ofExpression levels document) ⊆ document.texts)

include expression

theorem ofItems_texts (items : List Json) (position : Nat) :
    outcomeTexts (quotedTextsOfAll .escaped) (ofItems levels position items) ⊆
      Json.textsOfItems items := by
  induction items generalizing position with
  | nil => exact List.Subset.refl _
  | cons item rest ih =>
    have first := expression item
    have others := ih (position + 1)
    rw [ofItems, Json.textsOfItems]
    cases read : ofExpression levels item with
    | error fault =>
      rw [read] at first
      change (fault.under [.index position]).keys ⊆ _
      rw [fault.keys_under_index]
      exact List.subset_append_of_subset_left _ first
    | ok operand =>
      rw [read] at first
      cases reads : ofItems levels (position + 1) rest with
      | error fault =>
        rw [reads] at others
        exact List.subset_append_of_subset_right _ others
      | ok operands =>
        rw [reads] at others
        exact List.append_subset.2 ⟨List.subset_append_of_subset_left _ first,
          List.subset_append_of_subset_right _ others⟩

theorem ofOperands_texts (value : Json) :
    outcomeTexts (quotedTextsOfAll .escaped) (ofOperands levels value) ⊆ value.texts := by
  cases value with
  | array items =>
    rw [ofOperands, Json.texts]
    split
    · exact List.nil_subset _
    · exact ofItems_texts expression items 0
  | _ => exact List.nil_subset _

theorem ofExpression_texts_step (document : Json) :
    outcomeTexts (quotedTexts .escaped) (ofExpression (levels + 1) document) ⊆
      document.texts := by
  match document with
  | .null | .bool _ | .number _ | .string _ | .array _ | .object [] => exact List.nil_subset _
  | .object [(key, value)] =>
    rw [Json.texts_object_singleton]
    simp only [ofExpression]
    by_cases empty : key.isEmpty = true
    · rw [if_pos empty]
      exact List.nil_subset _
    · rw [if_neg empty]
      cases ExpressionKey.ofText key with
      | connective op =>
        have below := ofOperands_texts expression value
        refine List.Subset.trans (outcomeTexts_under_key _ key _) (List.cons_subset_cons key ?_)
        cases read : ofOperands levels value with
        | error fault =>
          rw [read] at below
          exact below
        | ok operands =>
          rw [read] at below
          exact below
      | compare op =>
        have below := ofComparison_texts op value
        exact List.Subset.trans (outcomeTexts_under_key _ key _) (List.cons_subset_cons key below)
      | field => exact ofField_texts .eq key value
      | unknown => exact List.cons_subset_cons key (List.nil_subset _)
  | .object (first :: second :: rest) => exact Json.keys_subset_texts (first :: second :: rest)

end Step

theorem ofExpression_texts (levels : Nat) (document : Json) :
    outcomeTexts (quotedTexts .escaped) (ofExpression levels document) ⊆ document.texts := by
  induction levels generalizing document with
  | zero =>
    rw [ofExpression]
    exact List.nil_subset _
  | succ levels ih => exact ofExpression_texts_step ih document

/-! ## Mixed lists -/

mutual

theorem keys_of_mixedList? : (filter : Filter) → (path : Path) → (families : Family × Family) →
    filter.mixedList? = some (path, families) → path.keys ⊆ operatorKeywords
  | .always, _, _, h => by cases h
  | .compare op field value, path, families, h => by
    obtain ⟨_, -, found⟩ := Option.map_eq_some_iff.1 h
    cases found
    exact List.cons_subset.2 ⟨op.keyword_mem_operatorKeywords, List.nil_subset _⟩
  | .combine op operands, path, families, h => by
    obtain ⟨⟨below, _⟩, among, found⟩ := Option.map_eq_some_iff.1 h
    cases found
    have keys : below.keys ⊆ operatorKeywords := keys_of_mixedListAmong? operands 0 below _ among
    exact List.cons_subset.2 ⟨op.keyword_mem_operatorKeywords, keys⟩

theorem keys_of_mixedListAmong? : (operands : List Filter) → (position : Nat) → (path : Path) →
    (families : Family × Family) →
    mixedListAmong? position operands = some (path, families) → path.keys ⊆ operatorKeywords
  | [], _, _, _, h => by cases h
  | operand :: rest, position, path, families, h => by
    unfold mixedListAmong? at h
    split at h
    · rename_i below found first
      cases h
      exact keys_of_mixedList? operand below families first
    · exact keys_of_mixedListAmong? rest (position + 1) path families h

end

theorem keys_of_checkListTypes {filter : Filter} {e : FilterError}
    (h : filter.checkListTypes = .error e) : e.keys ⊆ operatorKeywords := by
  unfold checkListTypes at h
  split at h
  · cases h
  · rename_i path first other found
    cases h
    have keys : path.keys ⊆ operatorKeywords := keys_of_mixedList? filter path _ found
    exact List.append_subset.2 ⟨keys, List.nil_subset _⟩

end Filter

/-! ## Answers -/

theorem Filter.ofJson_texts (limit : Nat) (document : Json) :
    match ofJson limit document with
    | .ok filter => filter.quotedTexts .escaped ⊆ document.texts
    | .error e => e.keys ⊆ document.texts := by
  have expression := ofExpression_texts limit document
  have other : ofJson limit document = .ok .always ∨
      ofJson limit document = (ofExpression limit document).mapError (Fault.atLimit limit) := by
    match document with
    | .null | .object [] => exact .inl rfl
    | .bool _ | .number _ | .string _ | .array _ | .object (_ :: _) => exact .inr rfl
  rcases other with read | read
  · rw [read]
    exact List.nil_subset _
  · rw [read]
    cases outcome : ofExpression limit document with
    | ok filter =>
      rw [outcome] at expression
      exact expression
    | error fault =>
      rw [outcome] at expression
      rw [mapError_error]
      change (fault.atLimit limit).keys ⊆ _
      rw [fault.keys_atLimit]
      exact expression

/-- **An answer shows texts of its document only**, and keywords. -/
theorem Compiler.accept_texts (compiler : Compiler) (document : Json) :
    match compiler.accept document with
    | .ok filter => filter.quotedTexts .escaped ⊆ document.texts
    | .error e => e.keys ⊆ document.texts ∨ e.keys ⊆ operatorKeywords := by
  have read := Filter.ofJson_texts compiler.maxDepth document
  unfold accept
  cases outcome : Filter.ofJson compiler.maxDepth document with
  | error e =>
    rw [outcome] at read
    exact .inl read
  | ok filter =>
    rw [outcome] at read
    simp only [bind, Except.bind]
    cases strict : compiler.checkStrict filter with
    | ok => exact read
    | error e =>
      unfold checkStrict at strict
      split at strict
      · exact .inr (Filter.keys_of_checkListTypes strict)
      · cases strict

end MetadataFilter
