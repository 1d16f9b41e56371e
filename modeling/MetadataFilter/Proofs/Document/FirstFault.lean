import MetadataFilter.Proofs.Document.Expression

/-!
# The fault of a document is its first one

The path of a fault leads to a node of the document. It goes from list of operands to list of
operands, in each past operands that are read without fault (`Filter.Leads`), and ends with the keys
inside one expression (`Json.KeysTo`). What stands behind the way does not matter: with any other
operands there the same fault is found (`Filter.ofJson_refuses_first_fault`).

The way is found from the fault by going down the document (`Filter.exists_leads_of_refused`), and
the fault from the way by going up again (`Filter.Leads.refused`). Going up needs nothing of the
operands behind the way, so other operands leave the fault as it is.
-/

namespace MetadataFilter

/-- These keys, each the only one of its object, lead from the value to the node. -/
inductive Json.KeysTo : (value : Json) → (keys : List String) → (node : Json) → Prop
  | here (value : Json) : KeysTo value [] value
  | key (key : String) {value node : Json} {keys : List String} (below : KeysTo value keys node) :
      KeysTo (.object [(key, value)]) (key :: keys) node

/-- The documents differ at most in the operands behind the way to the place: in each list of the
way the operands before it are the same, and there are as many behind it. -/
inductive Json.SameUpTo : (place : Path) → (document other : Json) → Prop
  | root (document : Json) : SameUpTo [] document document
  | operand {key : String} {items others : List Json} {position : Nat} {item other : Json}
      {place : Path} (length : others.length = items.length)
      (earlier : others.take position = items.take position)
      (here : items[position]? = some item) (there : others[position]? = some other)
      (below : SameUpTo place item other) :
      SameUpTo (.key key :: .index position :: place) (.object [(key, .array items)])
        (.object [(key, .array others)])

namespace Filter

/-- The place leads from a document, read with `levels`, to an expression in it, read with `below`.
Each step goes to an operand of a connective, one level further down, and the operands before that
one are read without fault at their level. -/
inductive Leads : (levels : Nat) → (document : Json) → (place : Path) → (below : Nat) →
    (part : Json) → Prop
  | root (levels : Nat) (document : Json) : Leads levels document [] levels document
  | operand {levels below position : Nat} {key : String} {op : Connective} {items : List Json}
      {item part : Json} {place : Path} (connective : ExpressionKey.ofText key = .connective op)
      (many : 2 ≤ items.length) (here : items[position]? = some item)
      (read : ∀ earlier ∈ items.take position, ∃ filter, ofExpression levels earlier = .ok filter)
      (rest : Leads levels item place below part) :
      Leads (levels + 1) (.object [(key, .array items)]) (.key key :: .index position :: place)
        below part

/-! ## Down to the fault -/

theorem ofField_refuses {op : CompareOp} {field : String} {value : Json} {fault : Fault}
    (h : ofField op field value = .error fault) :
    ∃ reason, fault = .refused [.key field] reason := by
  unfold ofField at h
  split at h
  · cases h
  · cases h
    exact ⟨_, rfl⟩

theorem ofComparison_refuses {op : CompareOp} {value : Json} {fault : Fault}
    (h : ofComparison op value = .error fault) :
    ∃ keys node reason, value.KeysTo keys node ∧ keys.length ≤ 1 ∧
      fault = .refused (keys.map Segment.key) reason := by
  unfold ofComparison at h
  split at h
  · split at h
    · next field literal single =>
      obtain ⟨rfl, -⟩ := (singleMember_eq_ok_iff _ field literal).1 single
      obtain ⟨reason, rfl⟩ := ofField_refuses h
      exact ⟨[field], literal, reason, .key field (.here literal), Nat.le_refl 1, rfl⟩
    · cases h
      exact ⟨[], _, _, .here _, Nat.zero_le 1, rfl⟩
  · cases h
    exact ⟨[], _, _, .here _, Nat.zero_le 1, rfl⟩

theorem ofOperands_refuses {levels : Nat} {value : Json} {fault : Fault}
    (h : ofOperands levels value = .error fault) :
    (∃ reason, fault = .refused [] reason) ∨
    ∃ items, value = .array items ∧ 2 ≤ items.length ∧ ofItems levels 0 items = .error fault := by
  cases value with
  | array items =>
    rw [ofOperands] at h
    split at h
    · cases h
      exact .inl ⟨_, rfl⟩
    · next many => exact .inr ⟨items, rfl, Nat.not_lt.1 many, h⟩
  | _ =>
    cases h
    exact .inl ⟨_, rfl⟩

/-- An expression is refused at a place among its own keys, or for one of its operands. -/
theorem ofExpression_refuses {levels : Nat} {document : Json} {path : Path} {reason : Reason}
    (h : ofExpression (levels + 1) document = .error (.refused path reason)) :
    (∃ keys node, document.KeysTo keys node ∧ keys.length ≤ 2 ∧ path = keys.map Segment.key) ∨
    ∃ key op items inner, document = .object [(key, .array items)] ∧
      ExpressionKey.ofText key = .connective op ∧ 2 ≤ items.length ∧
      ofItems levels 0 items = .error (.refused inner reason) ∧ path = .key key :: inner := by
  cases form document with
  | refused _ all =>
    rw [all] at h
    cases h
    exact .inl ⟨[], document, .here document, Nat.zero_le 2, rfl⟩
  | @connective key op value known =>
    rw [ofExpression_connective known] at h
    cases outcome : ofOperands levels value with
    | ok operands =>
      rw [outcome] at h
      cases h
    | error fault =>
      rw [outcome] at h
      rcases ofOperands_refuses outcome with ⟨own, rfl⟩ | ⟨items, rfl, many, refused⟩
      · cases h
        exact .inl ⟨[key], value, .key key (.here value), Nat.le_succ 1, rfl⟩
      · cases fault with
        | tooDeep => cases h
        | refused inner reason =>
          cases h
          exact .inr ⟨key, op, items, inner, rfl, known, many, refused, rfl⟩
  | @compare key op value known =>
    rw [ofExpression_compare known] at h
    cases outcome : ofComparison op value with
    | ok filter =>
      rw [outcome] at h
      cases h
    | error fault =>
      rw [outcome] at h
      obtain ⟨keys, node, own, below, length, rfl⟩ := ofComparison_refuses outcome
      cases h
      exact .inl ⟨key :: keys, node, .key key below, Nat.succ_le_succ length, rfl⟩
  | @field key value named known =>
    rw [ofExpression_field named known] at h
    obtain ⟨own, same⟩ := ofField_refuses h
    cases same
    exact .inl ⟨[key], value, .key key (.here value), Nat.le_succ 1, rfl⟩

/-- The way to the place of a fault, and the expression there that is refused for the rest of the
path. -/
theorem exists_leads_of_refused {levels : Nat} {document : Json} {path : Path} {reason : Reason}
    (h : ofExpression levels document = .error (.refused path reason)) :
    ∃ place below part keys node, Leads levels document place below part ∧
      part.KeysTo keys node ∧ keys.length ≤ 2 ∧ path = place ++ keys.map Segment.key ∧
      ofExpression below part = .error (.refused (keys.map Segment.key) reason) := by
  induction levels generalizing document path with
  | zero =>
    rw [ofExpression] at h
    cases h
  | succ levels ih =>
    rcases ofExpression_refuses h with
      ⟨keys, node, keysTo, length, rfl⟩ |
      ⟨key, op, items, inner, rfl, connective, many, refused, rfl⟩
    · exact ⟨[], _, _, keys, node, .root _ _, keysTo, length, rfl, h⟩
    · obtain ⟨position, item, fault, here, read, refused, same⟩ := ofItems_eq_error_iff.1 refused
      cases fault with
      | tooDeep => cases same
      | refused path reason =>
        rw [Nat.zero_add] at same
        cases same
        obtain ⟨place, below, part, keys, node, rest, keysTo, length, rfl, outcome⟩ := ih refused
        exact ⟨_, below, part, keys, node, .operand connective many here read rest, keysTo, length,
          rfl, outcome⟩

/-! ## Up to the document -/

/-- The fault of an expression on the way is the fault of the document. -/
theorem Leads.refused {levels below : Nat} {document part : Json} {place : Path} {fault : Fault}
    (leads : Leads levels document place below part)
    (h : ofExpression below part = .error fault) :
    ofExpression levels document = .error (fault.under place) := by
  induction leads with
  | root => rw [h, Fault.under_nil]
  | @operand levels below position key op items item part place connective many here read rest ih =>
    have first : ofItems levels 0 items =
        .error ((fault.under place).under [.index (0 + position)]) :=
      ofItems_eq_error_iff.2 ⟨position, item, _, here, read, ih h, rfl⟩
    rw [ofExpression_connective connective, ofOperands_of_many many, first, Nat.zero_add,
      Fault.under_under]
    exact congrArg Except.error (Fault.under_under fault _ _)

/-- With other operands behind it, the way is the same. -/
theorem Leads.sameUpTo {levels below : Nat} {document other part : Json} {place : Path}
    (leads : Leads levels document place below part) (same : document.SameUpTo place other) :
    Leads levels other place below part := by
  induction leads generalizing other with
  | root =>
    cases same
    exact .root _ _
  | operand connective many here read rest ih =>
    cases same with
    | operand length earlier here' there below =>
      obtain rfl := Option.some.inj (here.symm.trans here')
      exact .operand connective (length ▸ many) there (earlier ▸ read) (ih below)

/-! ## Documents -/

theorem ofExpression_of_ofJson_invalid {limit : Nat} {document : Json} {path : Path}
    {reason : Reason} (h : ofJson limit document = .error (.invalid path reason)) :
    ofExpression limit document = .error (.refused path reason) := by
  unfold ofJson at h
  split at h
  · cases h
  · cases h
  · cases outcome : ofExpression limit document with
    | ok filter =>
      rw [outcome] at h
      cases h
    | error fault =>
      rw [outcome] at h
      cases fault with
      | tooDeep => cases h
      | refused inner own =>
        cases h
        rfl

/-- **The path of a fault leads to the first fault of the document**: past operands that are read
without fault, to a node that exists in an expression that is refused itself. What stands behind the
way does not matter. -/
theorem ofJson_refuses_first_fault {limit : Nat} {document : Json} {path : Path} {reason : Reason}
    (refused : ofJson limit document = .error (.invalid path reason)) :
    ∃ place below part keys node, Leads limit document place below part ∧
      part.KeysTo keys node ∧ keys.length ≤ 2 ∧ path = place ++ keys.map Segment.key ∧
      path.text = "filter" ++ String.join (path.map Segment.text) ∧
      ofExpression below part = .error (.refused (keys.map Segment.key) reason) ∧
      ∀ other, document.SameUpTo place other →
        ofJson limit other = .error (.invalid path reason) := by
  obtain ⟨place, below, part, keys, node, leads, keysTo, length, rfl, outcome⟩ :=
    exists_leads_of_refused (ofExpression_of_ofJson_invalid refused)
  refine ⟨place, below, part, keys, node, leads, keysTo, length, rfl, Path.text_eq_join _, outcome,
    ?_⟩
  intro other same
  have again := (leads.sameUpTo same).refused outcome
  cases same with
  | root => exact refused
  | operand =>
    rw [ofJson, again]
    · rfl
    · nofun
    · nofun

/-- The second operand is refused, and would be whatever the third one were. -/
theorem ofJson_refuses_first_fault_before_any :
    let document (last : Json) : Json :=
      .object [("$and", .array [.object [("a", .bool true)], .object [("$gt", .array [])], last])]
    let path : Path := [.key "$and", .index 1, .key "$gt"]
    ofJson 2 (document .null) = .error (.invalid path (.expectedFieldValue .list)) ∧
    path.text = "filter.$and[1].$gt" ∧
    ∀ last, ofJson 2 (document last) = .error (.invalid path (.expectedFieldValue .list)) := by
  intro document path
  have refused : ofJson 2 (document .null) =
      .error (.invalid path (.expectedFieldValue .list)) := rfl
  obtain ⟨place, below, part, keys, node, leads, -, length, same, -, -, others⟩ :=
    ofJson_refuses_first_fault refused
  refine ⟨refused, rfl, fun last => others _ ?_⟩
  cases leads with
  | root =>
    -- without a step there are three keys
    have three : path.length = keys.length := by rw [same, List.nil_append, List.length_map]
    have : path.length = 3 := rfl
    omega
  | operand connective many here read rest =>
    simp only [path, List.cons_append, List.cons.injEq, Segment.index.injEq] at same
    obtain ⟨-, rfl, same⟩ := same
    cases rest with
    | root => exact .operand rfl rfl rfl rfl (.root _)
    | operand => simp at same

end Filter

end MetadataFilter
