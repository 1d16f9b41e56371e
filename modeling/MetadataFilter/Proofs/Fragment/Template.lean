import MetadataFilter.Fragment.Basic

/-!
# Templates

A template is a fragment before any mode has had its say: fixed code, the field names, and the
scalars in the places where they will stand. `Fragment.write` writes a template in a mode; the
scalars are numbered from left to right, and only the parameterized mode looks at the numbers.

* `Filter.values_template`: the template of a filter holds the scalars of the filter, from left to
  right.
* `Fragment.write_append`: what stands behind a template starts with the next number.
* `Filter.write_eq_nil_iff`: only for `always` nothing is written.
-/

namespace MetadataFilter

namespace Fragment

/-- A piece of a template. -/
inductive Piece
  | code (text : List Char)
  | name (field : String)
  | value (scalar : Scalar)

/-- The scalar that a piece holds. -/
def Piece.scalar? : Piece → Option Scalar
  | .value scalar => some scalar
  | _ => none

/-- The scalars of a template, from left to right. -/
def values (pieces : List Piece) : List Scalar := pieces.filterMap Piece.scalar?

@[simp] theorem values_append (p q : List Piece) : values (p ++ q) = values p ++ values q :=
  List.filterMap_append

@[simp] theorem values_nil : values [] = [] := rfl

@[simp] theorem values_code (text : List Char) (p : List Piece) :
    values (.code text :: p) = values p := rfl

@[simp] theorem values_name (field : String) (p : List Piece) :
    values (.name field :: p) = values p := rfl

@[simp] theorem values_value (x : Scalar) (p : List Piece) :
    values (.value x :: p) = x :: values p := rfl

/-! ## Writing -/

/-- The scalar with a number, as the mode writes it. -/
def valueText (mode : Mode) (number : Nat) (x : Scalar) : List Char :=
  match mode with
  | .parameterized => placeholder number x
  | .legacy | .escaped => scalarText mode x

/-- The text of a template whose first scalar has the given number. -/
def write (mode : Mode) (number : Nat) : List Piece → List Char
  | [] => []
  | .code text :: rest => text ++ write mode number rest
  | .name field :: rest => literalText mode field ++ write mode number rest
  | .value x :: rest => valueText mode number x ++ write mode (number + 1) rest

theorem write_append (mode : Mode) (number : Nat) (p q : List Piece) :
    write mode number (p ++ q) =
      write mode number p ++ write mode (number + (values p).length) q := by
  induction p generalizing number with
  | nil => rfl
  | cons piece p ih =>
    cases piece with
    | code | name =>
      simp only [List.cons_append, write, ih, values_code, values_name, List.append_assoc]
    | value x =>
      simp only [List.cons_append, write, ih, values_value, List.length_cons, List.append_assoc]
      rw [Nat.add_right_comm, Nat.add_assoc]

/-- Without parameters the numbers do not show. -/
theorem write_number {mode : Mode} (h : mode ≠ .parameterized) (number : Nat)
    (pieces : List Piece) : write mode number pieces = write mode 0 pieces := by
  induction pieces generalizing number with
  | nil => rfl
  | cons piece pieces ih =>
    cases piece with
    | code | name => simp only [write, ih number]
    | value x =>
      have text : valueText mode number x = valueText mode 0 x := by
        cases mode with
        | legacy | escaped => rfl
        | parameterized => exact absurd rfl h
      rw [write, write, text, ih (number + 1), ih (0 + 1)]

/-! ## Literals -/

/-- Scalars with commas between them. -/
def listTemplate : List Scalar → List Piece
  | [] => []
  | [x] => [.value x]
  | x :: rest => .value x :: .code ", ".toList :: listTemplate rest

@[simp] theorem values_listTemplate (scalars : List Scalar) :
    values (listTemplate scalars) = scalars := by
  fun_induction listTemplate scalars <;> simp_all

end Fragment

open Fragment

/-- The scalars of a literal, in order. -/
def Literal.scalars : Literal → List Scalar
  | .scalar x => [x]
  | .list xs => xs

/-- A literal as it stands to the right of an operator. -/
def Literal.template : Literal → List Piece
  | .scalar x => [.value x]
  | .list xs => .code "array_unpack([".toList :: listTemplate xs ++ [.code "])".toList]

@[simp] theorem Literal.values_template (literal : Literal) :
    values literal.template = literal.scalars := by
  cases literal <;> simp [Literal.template, Literal.scalars]

/-! ## Filters -/

namespace Filter

mutual

/-- The scalars of a filter, from left to right. -/
def scalars : Filter → List Scalar
  | .always => []
  | .compare _ _ value => value.scalars
  | .combine _ operands => scalarsOfAll operands

/-- The scalars of several filters. -/
def scalarsOfAll : List Filter → List Scalar
  | [] => []
  | operand :: rest => operand.scalars ++ scalarsOfAll rest

end

mutual

/-- The template of a filter: nothing for `always`, an accessor with an operator and a literal for a
comparison, and operands between parentheses for a connective. -/
def template : Filter → List Piece
  | .always => []
  | .compare op field value =>
    .code "<str>json_get(.metadata, ".toList :: .name field :: .code [')'] ::
      .code (operatorText op.symbol) :: value.template
  | .combine op operands => .code ['('] :: joinTemplates op operands ++ [.code [')']]

/-- The templates of operands with a connective between them. -/
def joinTemplates (op : Connective) : List Filter → List Piece
  | [] => []
  | [operand] => operand.template
  | operand :: rest => operand.template ++ .code (operatorText op.symbol) :: joinTemplates op rest

end

mutual

theorem values_template : (filter : Filter) → values filter.template = filter.scalars
  | .always => by simp [template, scalars]
  | .compare op field value => by simp [template, scalars]
  | .combine op operands => by simp [template, scalars, values_joinTemplates op operands]

theorem values_joinTemplates (op : Connective) :
    (operands : List Filter) → values (joinTemplates op operands) = scalarsOfAll operands
  | [] => by simp [joinTemplates, scalarsOfAll]
  | [operand] => by simp [joinTemplates, scalarsOfAll, values_template operand]
  | operand :: next :: rest => by
    simp [joinTemplates, scalarsOfAll, values_template operand,
      values_joinTemplates op (next :: rest)]

end

/-- Only for `always` nothing is written. -/
theorem write_eq_nil_iff {mode : Mode} {number : Nat} {filter : Filter} :
    write mode number filter.template = [] ↔ filter = .always := by
  cases filter <;> simp [template, write]

end Filter

/-! ## Code -/

/-- The code that templates are made of. -/
def codeTexts : List (List Char) :=
  ["<str>json_get(.metadata, ".toList, "array_unpack([".toList, ", ".toList, "])".toList,
    ['('], [')']] ++
    CompareOp.all.map (fun op => operatorText op.symbol) ++
    Connective.all.map fun op => operatorText op.symbol

theorem comma_of_code_mem_listTemplate {text : List Char} {xs : List Scalar}
    (h : .code text ∈ listTemplate xs) : text = ", ".toList := by
  fun_induction listTemplate xs with
  | case1 => cases h
  | case2 x => cases List.mem_singleton.1 h
  | case3 x rest _ ih =>
    rcases List.mem_cons.1 h with value | h
    · cases value
    rcases List.mem_cons.1 h with comma | h
    · cases comma
      rfl
    · exact ih h

theorem Literal.code_mem_template {text : List Char} {value : Literal}
    (h : .code text ∈ value.template) : text ∈ codeTexts := by
  cases value with
  | scalar x => cases List.mem_singleton.1 h
  | list xs =>
    rw [template, List.cons_append] at h
    rcases List.mem_cons.1 h with opening | h
    · cases opening
      decide
    · rcases List.mem_append.1 h with comma | closing
      · rw [comma_of_code_mem_listTemplate comma]
        decide
      · cases List.mem_singleton.1 closing
        decide

namespace Filter

theorem operatorText_mem_codeTexts (op : Connective) : operatorText op.symbol ∈ codeTexts := by
  cases op <;> decide

mutual

theorem code_mem_template {text : List Char} : (filter : Filter) →
    .code text ∈ filter.template → text ∈ codeTexts
  | .always, h => by cases h
  | .compare op field value, h => by
    rcases List.mem_cons.1 h with accessor | h
    · cases accessor
      decide
    rcases List.mem_cons.1 h with name | h
    · cases name
    rcases List.mem_cons.1 h with parenthesis | h
    · cases parenthesis
      decide
    rcases List.mem_cons.1 h with operator | h
    · cases operator
      cases op <;> decide
    · exact Literal.code_mem_template h
  | .combine op operands, h => by
    rw [template, List.cons_append] at h
    rcases List.mem_cons.1 h with opening | h
    · cases opening
      decide
    rcases List.mem_append.1 h with h | closing
    · exact code_mem_joinTemplates op operands h
    · cases List.mem_singleton.1 closing
      decide

theorem code_mem_joinTemplates {text : List Char} (op : Connective) : (operands : List Filter) →
    .code text ∈ joinTemplates op operands → text ∈ codeTexts
  | [], h => by cases h
  | [operand], h => code_mem_template operand h
  | operand :: next :: rest, h => by
    rcases List.mem_append.1 h with h | h
    · exact code_mem_template operand h
    rcases List.mem_cons.1 h with operator | h
    · cases operator
      exact operatorText_mem_codeTexts op
    · exact code_mem_joinTemplates op (next :: rest) h

end

/-- Neither a quote nor a dollar sign is in the code of a template. -/
theorem code_tame {filter : Filter} {text : List Char} (h : .code text ∈ filter.template) :
    '"' ∉ text ∧ '$' ∉ text := by
  have tame : ∀ text ∈ codeTexts, '"' ∉ text ∧ '$' ∉ text := by decide
  exact tame text (filter.code_mem_template h)

end Filter

end MetadataFilter
