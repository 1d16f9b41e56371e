import MetadataFilter.Proofs.Fragment.Scalar
import MetadataFilter.Proofs.Fragment.Template

/-!
# One reading of a fragment

In the strict modes the text of a well-formed filter determines the filter and the place where it
ends (`Filter.text_unique`), whatever is behind it that could not continue a number or a truth
value. In the parameterized mode the scalars are not in the text: there both filters have to take
their scalars from the same supply, which assigns one to each number (`Fragment.TakenFrom`).
-/

namespace MetadataFilter

namespace Fragment

/-- In the parameterized mode the scalars are what the supply has from `number` on. -/
def TakenFrom (supply : Nat → Scalar) (mode : Mode) (number : Nat) (xs : List Scalar) : Prop :=
  mode = .parameterized → ∀ i x, xs[i]? = some x → supply (number + i) = x

variable {supply : Nat → Scalar} {mode : Mode} {number : Nat}

theorem TakenFrom.left {xs ys : List Scalar} (h : TakenFrom supply mode number (xs ++ ys)) :
    TakenFrom supply mode number xs := by
  intro parameterized i x at_i
  obtain ⟨bound, -⟩ := List.getElem?_eq_some_iff.1 at_i
  exact h parameterized i x (by rw [List.getElem?_append_left bound, at_i])

theorem TakenFrom.right {xs ys : List Scalar} (h : TakenFrom supply mode number (xs ++ ys)) :
    TakenFrom supply mode (number + xs.length) ys := by
  intro parameterized i x at_i
  rw [Nat.add_assoc]
  apply h parameterized
  rw [List.getElem?_append_right (Nat.le_add_right _ _), Nat.add_sub_cancel_left, at_i]

theorem TakenFrom.head {x : Scalar} {xs : List Scalar}
    (h : TakenFrom supply mode number (x :: xs)) :
    mode = .parameterized → supply number = x :=
  fun parameterized => h parameterized 0 x rfl

theorem TakenFrom.tail {x : Scalar} {xs : List Scalar}
    (h : TakenFrom supply mode number (x :: xs)) :
    TakenFrom supply mode (number + 1) xs :=
  TakenFrom.right (show TakenFrom supply mode number ([x] ++ xs) from h)

/-! ## Literals -/

theorem closed_cons {c : Char} (rest : List Char) (h : isBareChar c = false) :
    Closed (c :: rest) := by
  rintro d ⟨⟩
  exact h

theorem valueText_unique (strict : mode.isStrict = true) {x y : Scalar} (hx : x.Finite)
    (hy : y.Finite) (takenX : mode = .parameterized → supply number = x)
    (takenY : mode = .parameterized → supply number = y) {r r' : List Char} (hr : Closed r)
    (hr' : Closed r') (h : valueText mode number x ++ r = valueText mode number y ++ r') :
    x = y ∧ r = r' := by
  cases mode with
  | legacy => exact absurd strict (by decide)
  | escaped => exact scalarText_unique hx hy hr hr' h
  | parameterized =>
    obtain rfl : x = y := (takenX rfl).symm.trans (takenY rfl)
    exact ⟨rfl, List.append_cancel_left h⟩

/-- The members of a list that follow another one, up to the bracket. -/
def listRest (mode : Mode) (number : Nat) (rest : List Char) : List Scalar → List Char
  | [] => ']' :: rest
  | x :: xs => ", ".toList ++ (valueText mode number x ++ listRest mode (number + 1) rest xs)

theorem listRest_closed (mode : Mode) (number : Nat) (rest : List Char) (xs : List Scalar) :
    Closed (listRest mode number rest xs) := by
  cases xs with
  | nil => exact closed_cons rest rfl
  | cons => exact closed_cons _ rfl

theorem write_listTemplate (mode : Mode) (number : Nat) (rest : List Char) (x : Scalar)
    (xs : List Scalar) :
    write mode number (listTemplate (x :: xs)) ++ ']' :: rest =
      valueText mode number x ++ listRest mode (number + 1) rest xs := by
  induction xs generalizing x number with
  | nil => simp [listTemplate, write, listRest]
  | cons y ys ih =>
    rw [listTemplate, write, write, List.append_assoc, List.append_assoc, ih, listRest]
    exact List.cons_ne_nil y ys

theorem listRest_unique (strict : mode.isStrict = true) {xs ys : List Scalar}
    (hx : ∀ x ∈ xs, x.Finite) (hy : ∀ y ∈ ys, y.Finite) (takenX : TakenFrom supply mode number xs)
    (takenY : TakenFrom supply mode number ys) {r r' : List Char}
    (h : listRest mode number r xs = listRest mode number r' ys) : xs = ys ∧ r = r' := by
  induction xs generalizing ys number with
  | nil =>
    cases ys with
    | nil => exact ⟨rfl, (List.cons.inj h).2⟩
    | cons => exact absurd (List.cons.inj h).1 (by decide)
  | cons x xs ih =>
    cases ys with
    | nil => exact absurd (List.cons.inj h).1 (by decide)
    | cons y ys =>
      obtain ⟨rfl, behind⟩ := valueText_unique strict (hx x List.mem_cons_self)
        (hy y List.mem_cons_self) takenX.head takenY.head (listRest_closed _ _ _ _)
        (listRest_closed _ _ _ _) (List.append_cancel_left h)
      obtain ⟨rfl, same⟩ := ih (fun z hz => hx z (List.mem_cons_of_mem _ hz))
        (fun z hz => hy z (List.mem_cons_of_mem _ hz)) takenX.tail takenY.tail behind
      exact ⟨rfl, same⟩

theorem listTemplate_unique (strict : mode.isStrict = true) {xs ys : List Scalar} (nx : xs ≠ [])
    (ny : ys ≠ []) (hx : ∀ x ∈ xs, x.Finite) (hy : ∀ y ∈ ys, y.Finite)
    (takenX : TakenFrom supply mode number xs) (takenY : TakenFrom supply mode number ys)
    {r r' : List Char}
    (h : write mode number (listTemplate xs) ++ ']' :: r =
      write mode number (listTemplate ys) ++ ']' :: r') : xs = ys ∧ r = r' := by
  obtain ⟨x, xs, rfl⟩ := List.exists_cons_of_ne_nil nx
  obtain ⟨y, ys, rfl⟩ := List.exists_cons_of_ne_nil ny
  rw [write_listTemplate, write_listTemplate] at h
  -- a list is its first member with a comma in front, as a member that follows another one
  exact listRest_unique strict hx hy takenX takenY (congrArg (", ".toList ++ ·) h)

theorem literal_unique (strict : mode.isStrict = true) {op : CompareOp} {v w : Literal}
    (hv : v.Fits op) (hw : w.Fits op) (takenV : TakenFrom supply mode number v.scalars)
    (takenW : TakenFrom supply mode number w.scalars) {r r' : List Char} (hr : Closed r)
    (hr' : Closed r')
    (h : write mode number v.template ++ r = write mode number w.template ++ r') :
    v = w ∧ r = r' := by
  cases v with
  | scalar x =>
    cases w with
    | scalar y =>
      simp only [Literal.template, write, List.append_nil] at h
      obtain ⟨rfl, rest⟩ :=
        valueText_unique strict hv.2 hw.2 takenV.head takenW.head hr hr' h
      exact ⟨rfl, rest⟩
    | list ys => exact absurd (hv.1.symm.trans hw.1) (by decide)
  | list xs =>
    cases w with
    | scalar y => exact absurd (hv.1.symm.trans hw.1) (by decide)
    | list ys =>
      obtain ⟨-, nx, hx⟩ := hv
      obtain ⟨-, ny, hy⟩ := hw
      simp only [Literal.template, List.cons_append, write, write_append, List.append_assoc] at h
      have h := List.append_cancel_left h
      obtain ⟨rfl, rest⟩ := listTemplate_unique strict nx ny hx hy takenV takenW h
      exact ⟨rfl, (List.cons.inj rest).2⟩

/-! ## Operators -/

theorem CompareOp.symbol_unique {op op' : CompareOp} {r r' : List Char}
    (h : operatorText op.symbol ++ r = operatorText op'.symbol ++ r') : op = op' ∧ r = r' := by
  cases op <;> cases op' <;> simp_all [operatorText, CompareOp.symbol]

theorem Connective.symbol_unique {op op' : Connective} {r r' : List Char}
    (h : operatorText op.symbol ++ r = operatorText op'.symbol ++ r') : op = op' ∧ r = r' := by
  cases op <;> cases op' <;> simp_all [operatorText, Connective.symbol]

end Fragment

/-! ## Filters -/

namespace Filter

open Fragment

variable {mode : Mode} {number : Nat}

theorem write_compare (op : CompareOp) (field : String) (value : Literal) (rest : List Char) :
    write mode number (template (.compare op field value)) ++ rest =
      "<str>json_get(.metadata, ".toList ++ (literalText mode field ++ ')' ::
        (operatorText op.symbol ++ (write mode number value.template ++ rest))) := by
  simp only [template, write, List.append_assoc, List.cons_append, List.nil_append]

theorem write_combine (op : Connective) (operands : List Filter) (rest : List Char) :
    write mode number (template (.combine op operands)) ++ rest =
      '(' :: (write mode number (joinTemplates op operands) ++ ')' :: rest) := by
  simp only [template, List.cons_append, write, write_append, List.append_assoc, List.nil_append]

theorem write_joinTemplates (op : Connective) (operand next : Filter) (others : List Filter)
    (rest : List Char) :
    write mode number (joinTemplates op (operand :: next :: others)) ++ rest =
      write mode number operand.template ++ (operatorText op.symbol ++
        (write mode (number + operand.scalars.length) (joinTemplates op (next :: others)) ++
          rest)) := by
  simp only [joinTemplates, write, write_append, values_template, List.append_assoc]

/-- The start of a comparison is not the start of operands. -/
theorem write_compare_ne_combine {op : CompareOp} {field : String} {value : Literal}
    {op' : Connective} {operands : List Filter} {r r' : List Char} :
    write mode number (template (.compare op field value)) ++ r ≠
      write mode number (template (.combine op' operands)) ++ r' := by
  rw [write_compare, write_combine]
  intro h
  exact absurd (List.cons.inj h).1 (by decide)

variable {supply : Nat → Scalar}

mutual

/-- **The text of a filter determines the filter**, and where it ends. -/
theorem text_unique (strict : mode.isStrict = true) {number : Nat} {r r' : List Char}
    (hr : Closed r) (hr' : Closed r') :
    (a b : Filter) → a.WellFormed → b.WellFormed → TakenFrom supply mode number a.scalars →
      TakenFrom supply mode number b.scalars →
      write mode number a.template ++ r = write mode number b.template ++ r' → a = b ∧ r = r'
  | .always, _, ha, _, _, _, _ => ha.elim
  | _, .always, _, hb, _, _, _ => hb.elim
  | .compare .., .combine .., _, _, _, _, h => absurd h write_compare_ne_combine
  | .combine .., .compare .., _, _, _, _, h => absurd h.symm write_compare_ne_combine
  | .compare op field value, .compare op' field' value', ⟨_, ha⟩, ⟨_, hb⟩, takenA, takenB, h => by
    rw [write_compare, write_compare] at h
    obtain ⟨rfl, path⟩ := literalText_unique strict (List.append_cancel_left h)
    obtain ⟨rfl, operator⟩ := CompareOp.symbol_unique (List.cons.inj path).2
    obtain ⟨rfl, rest⟩ := literal_unique strict ha hb takenA takenB hr hr' operator
    exact ⟨rfl, rest⟩
  | .combine op operands, .combine op' operands', ⟨manyA, ha⟩, ⟨manyB, hb⟩, takenA, takenB, h => by
    rw [write_combine, write_combine] at h
    obtain ⟨rfl, sameOp, rest⟩ := operands_unique strict op op' operands operands'
      (List.ne_nil_of_length_pos (Nat.lt_of_lt_of_le Nat.two_pos manyA))
      (List.ne_nil_of_length_pos (Nat.lt_of_lt_of_le Nat.two_pos manyB)) ha hb takenA takenB
      (List.cons.inj h).2
    obtain rfl := sameOp manyA
    exact ⟨rfl, rest⟩

/-- Operands up to the closing parenthesis. A connective shows only between two of them. -/
theorem operands_unique (strict : mode.isStrict = true) {number : Nat} {r r' : List Char}
    (op op' : Connective) :
    (as bs : List Filter) → as ≠ [] → bs ≠ [] → AllWellFormed as → AllWellFormed bs →
      TakenFrom supply mode number (scalarsOfAll as) →
      TakenFrom supply mode number (scalarsOfAll bs) →
      write mode number (joinTemplates op as) ++ ')' :: r =
        write mode number (joinTemplates op' bs) ++ ')' :: r' →
      as = bs ∧ (2 ≤ as.length → op = op') ∧ r = r'
  | [], _, na, _, _, _, _, _, _ => absurd rfl na
  | _, [], _, nb, _, _, _, _, _ => absurd rfl nb
  | [a], [b], _, _, ⟨ha, _⟩, ⟨hb, _⟩, takenA, takenB, h => by
    obtain ⟨rfl, rest⟩ := text_unique strict (closed_cons _ rfl) (closed_cons _ rfl) a b ha hb
      takenA.left takenB.left h
    exact ⟨rfl, fun many => absurd many (Nat.not_succ_le_self 1), (List.cons.inj rest).2⟩
  | [a], b :: b' :: bs, _, _, ⟨ha, _⟩, ⟨hb, _⟩, takenA, takenB, h => by
    rw [write_joinTemplates] at h
    obtain ⟨-, rest⟩ := text_unique strict (closed_cons _ rfl) (closed_cons _ rfl) a b ha hb
      takenA.left takenB.left h
    exact absurd (List.cons.inj rest).1 (by decide)
  | a :: a' :: as, [b], _, _, ⟨ha, _⟩, ⟨hb, _⟩, takenA, takenB, h => by
    rw [write_joinTemplates] at h
    obtain ⟨-, rest⟩ := text_unique strict (closed_cons _ rfl) (closed_cons _ rfl) a b ha hb
      takenA.left takenB.left h
    exact absurd (List.cons.inj rest).1 (by decide)
  | a :: a' :: as, b :: b' :: bs, _, _, ⟨ha, has⟩, ⟨hb, hbs⟩, takenA, takenB, h => by
    rw [write_joinTemplates, write_joinTemplates] at h
    obtain ⟨rfl, operator⟩ := text_unique strict (closed_cons _ rfl) (closed_cons _ rfl) a b ha hb
      takenA.left takenB.left h
    obtain ⟨rfl, others⟩ := Connective.symbol_unique operator
    obtain ⟨same, -, rest⟩ := operands_unique strict op op (a' :: as) (b' :: bs) nofun nofun has hbs
      takenA.right takenB.right others
    exact ⟨congrArg _ same, fun _ => rfl, rest⟩

end

end Filter

end MetadataFilter
