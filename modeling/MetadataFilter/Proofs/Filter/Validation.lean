import MetadataFilter.Proofs.Filter.Preorder
import MetadataFilter.Proofs.Filter.WellFormed

/-!
# The first fault of a filter

`Filter.validate` looks at the nodes of a filter in pre-order and stops at the first that is at
fault. What a node can be at fault for is said without the check: `Filter.Node.HasFault` for a node
at its level, `Filter.ComparisonFault` for the field and the literal of a comparison.

`Filter.validate_finds_first_fault`: the outcome is the fault of the first faulty node, with the
path of that node; there is none exactly for the filters all whose nodes are sound, and which are
not too deep.

The same comes out of a walk that counts levels from the root and keeps a single path, which each
node extends and cuts back to its length before it is left (`Filter.validate_eq_walk`).
-/

namespace MetadataFilter.Filter

/-! ## What is wrong with a node -/

/-- What a literal is refused for: its kind comes before the numbers in it. -/
inductive LiteralFault (op : CompareOp) : Literal → Reason → Prop
  | listRequired {x : Scalar} (set : op.isSet = true) :
      LiteralFault op (.scalar x) (.listRequired op)
  | listNotAccepted {xs : List Scalar} (single : op.isSet = false) :
      LiteralFault op (.list xs) (.listNotAccepted op)
  | emptyList (set : op.isSet = true) : LiteralFault op (.list []) (.emptyList op)
  | value {x : Binary64} (single : op.isSet = false) (notFinite : x.isFinite = false) :
      LiteralFault op (.scalar (.float x)) (.notFinite x)
  | member {before after : List Scalar} {x : Binary64} (set : op.isSet = true)
      (earlier : ∀ y ∈ before, y.Finite) (notFinite : x.isFinite = false) :
      LiteralFault op (.list (before ++ .float x :: after)) (.notFinite x)

/-- What a comparison is refused for. -/
inductive ComparisonFault (op : CompareOp) : String → Literal → Reason → Prop
  | unnamed {value : Literal} : ComparisonFault op "" value .emptyFieldName
  | literal {field : String} {value : Literal} {reason : Reason} (named : field ≠ "")
      (fault : LiteralFault op value reason) : ComparisonFault op field value reason

namespace Node

/-- The node has operands, or a field name and a literal, as it has to; `always` is the root. -/
def Sound (node : Node) : Prop :=
  match node.part with
  | .always => node.steps = []
  | .compare op field value => field ≠ "" ∧ value.Fits op
  | .combine _ operands => 2 ≤ operands.length

/-- The fault of a node in a filter that may nest `limit` deep. Nothing else is looked at in a node
below the limit. -/
inductive HasFault (limit : Nat) (node : Node) : FilterError → Prop
  | tooDeep (deep : limit < node.level) : HasFault limit node (.depthExceeded limit)
  | nested (level : node.level ≤ limit) (part : node.part = .always) (below : node.steps ≠ []) :
      HasFault limit node (.invalid node.path .emptyExpression)
  | comparison {op : CompareOp} {field : String} {value : Literal} {reason : Reason}
      (level : node.level ≤ limit) (part : node.part = .compare op field value)
      (fault : ComparisonFault op field value reason) :
      HasFault limit node (.invalid (node.path ++ [.key op.keyword]) reason)
  | fewOperands {op : Connective} {operands : List Filter} (level : node.level ≤ limit)
      (part : node.part = .combine op operands) (few : operands.length < 2) :
      HasFault limit node
        (.invalid (node.path ++ [.key op.keyword]) (.tooFewOperands operands.length))

def Faulty (limit : Nat) (node : Node) : Prop := ∃ error, node.HasFault limit error

/-- What the operator of a node adds to the text of a path. -/
def operatorText (node : Node) : String :=
  match node.part with
  | .always => ""
  | .compare op _ _ => "." ++ op.keyword
  | .combine op _ => "." ++ op.keyword

end Node

/-! ## Comparisons -/

theorem scalarCheck_eq_error_iff {x : Scalar} {reason : Reason} :
    x.check = .error reason ↔ ∃ y, x = .float y ∧ y.isFinite = false ∧ reason = .notFinite y := by
  cases x with
  | float y =>
    by_cases finite : y.isFinite = true
    · simp [Scalar.check, finite]
    · simp [Scalar.check, finite, eq_comm (a := reason)]
  | _ => simp [Scalar.check]

/-- The first number that is not finite is refused. -/
theorem checkAll_eq_error_iff {xs : List Scalar} {reason : Reason} :
    Scalar.checkAll xs = .error reason ↔
      ∃ before x after, xs = before ++ .float x :: after ∧ (∀ y ∈ before, y.Finite) ∧
        x.isFinite = false ∧ reason = .notFinite x := by
  induction xs with
  | nil => simp [Scalar.checkAll]
  | cons y ys ih =>
    have step : Scalar.checkAll (y :: ys) = y.check >>= fun _ => Scalar.checkAll ys := rfl
    constructor
    · intro refused
      cases check : y.check with
      | error e =>
        rw [step, check] at refused
        obtain ⟨x, rfl, notFinite, rfl⟩ := scalarCheck_eq_error_iff.1 check
        cases refused
        exact ⟨[], x, ys, rfl, List.forall_mem_nil _, notFinite, rfl⟩
      | ok _ =>
        rw [step, check] at refused
        obtain ⟨before, x, after, rfl, earlier, rest⟩ := ih.1 refused
        exact ⟨y :: before, x, after, rfl,
          List.forall_mem_cons.2 ⟨(Scalar.check_eq_ok_iff y).1 check, earlier⟩, rest⟩
    · rintro ⟨before, x, after, split, earlier, notFinite, rfl⟩
      cases before with
      | nil =>
        obtain ⟨rfl, rfl⟩ := List.cons.inj split
        rw [step, scalarCheck_eq_error_iff.2 ⟨x, rfl, notFinite, rfl⟩]
        rfl
      | cons z before =>
        obtain ⟨rfl, rfl⟩ := List.cons.inj split
        obtain ⟨first, others⟩ := List.forall_mem_cons.1 earlier
        rw [step, (Scalar.check_eq_ok_iff y).2 first]
        exact ih.2 ⟨before, x, after, rfl, others, notFinite, rfl⟩

theorem literalCheck_eq_error_iff {op : CompareOp} {value : Literal} {reason : Reason} :
    value.check op = .error reason ↔ LiteralFault op value reason := by
  constructor
  · intro refused
    cases value with
    | scalar x =>
      rw [Literal.check] at refused
      split at refused
      · next set =>
        cases refused
        exact .listRequired set
      · next single =>
        obtain ⟨y, rfl, notFinite, rfl⟩ := scalarCheck_eq_error_iff.1 refused
        exact .value (Bool.not_eq_true _ ▸ single) notFinite
    | list xs =>
      rw [Literal.check] at refused
      split at refused
      · next set =>
        split at refused
        · next empty =>
          cases refused
          obtain rfl := List.isEmpty_iff.1 empty
          exact .emptyList set
        · obtain ⟨before, x, after, rfl, earlier, notFinite, rfl⟩ :=
            checkAll_eq_error_iff.1 refused
          exact .member set earlier notFinite
      · next single =>
        cases refused
        exact .listNotAccepted (Bool.not_eq_true _ ▸ single)
  · intro fault
    cases fault with
    | listRequired set => rw [Literal.check, if_pos set]
    | listNotAccepted single => simp [Literal.check, single]
    | emptyList set => simp [Literal.check, set]
    | value single notFinite => simp [Literal.check, single, Scalar.check, notFinite]
    | @member before after x set earlier notFinite =>
      have all := checkAll_eq_error_iff.2 ⟨before, x, after, rfl, earlier, notFinite, rfl⟩
      simp [Literal.check, set, all]

theorem checkComparison_eq_error_iff {op : CompareOp} {field : String} {value : Literal}
    {reason : Reason} :
    checkComparison op field value = .error reason ↔ ComparisonFault op field value reason := by
  by_cases unnamed : field = ""
  · subst unnamed
    constructor
    · rintro ⟨⟩
      exact .unnamed
    · intro fault
      cases fault with
      | unnamed => rfl
      | literal named => contradiction
  · have check : checkComparison op field value = value.check op := by
      simp [checkComparison, unnamed]
    rw [check, literalCheck_eq_error_iff]
    constructor
    · exact .literal unnamed
    · intro fault
      cases fault with
      | unnamed => contradiction
      | literal _ fault => exact fault

/-! ## Nodes -/

/-- The fault of a part that is not the root, seen from that part. -/
def partFault? : Filter → Option Fault
  | .always => some (.refused [] .emptyExpression)
  | .compare op field value =>
    match checkComparison op field value with
    | .ok _ => none
    | .error reason => some (.refused [.key op.keyword] reason)
  | .combine op operands =>
    if operands.length < 2 then
      some (.refused [.key op.keyword] (.tooFewOperands operands.length))
    else none

/-- The fault of a node that is not the root, where `levels` levels are left. -/
def Node.fault? (levels : Nat) (node : Node) : Option Fault :=
  if levels < node.level then some .tooDeep else (partFault? node.part).map (Fault.under node.path)

theorem Node.fault?_under (levels position : Nat) (op : Connective) (node : Node) :
    (node.under op position).fault? (levels + 1) =
      (node.fault? levels).map (Fault.under [.key op.keyword, .index position]) := by
  unfold fault?
  rw [level_under, part_under, path_under]
  by_cases deep : levels < node.level
  · rw [if_pos deep, if_pos (Nat.add_lt_add_right deep 1)]
    rfl
  · rw [if_neg deep, if_neg (by omega), Option.map_map]
    congr 1
    funext fault
    exact (fault.under_under node.path [.key op.keyword, .index position]).symm

/-- The outcome of a check that may find a fault. -/
def outcomeOf {ε : Type} : Option ε → Except ε Unit
  | none => .ok ()
  | some fault => .error fault

theorem mapError_outcomeOf {ε ε' : Type} (f : ε → ε') (fault? : Option ε) :
    (outcomeOf fault?).mapError f = outcomeOf (fault?.map f) := by
  cases fault? <;> rfl

/-- A check and then another find the first of their faults. -/
theorem outcomeOf_bind {ε : Type} (first second : Option ε) :
    (outcomeOf first >>= fun _ => outcomeOf second) = outcomeOf (first.or second) := by
  cases first <;> rfl

theorem checkOperands_cons (levels position : Nat) (operand : Filter) (rest : List Filter) :
    checkOperands levels position (operand :: rest) =
      ((operand.check levels).mapError (Fault.under [.index position]) >>= fun _ =>
        checkOperands levels (position + 1) rest) := rfl

theorem checkOperands_eq_outcomeOf {levels : Nat}
    (each : ∀ filter : Filter,
      filter.check levels = outcomeOf (filter.nodes.findSome? (Node.fault? levels)))
    (op : Connective) (operands : List Filter) (position : Nat) :
    (checkOperands levels position operands).mapError (Fault.under [.key op.keyword]) =
      outcomeOf ((nodesOfAll op position operands).findSome? (Node.fault? (levels + 1))) := by
  induction operands generalizing position with
  | nil => rfl
  | cons operand rest ih =>
    have first : ((operand.nodes.map (Node.under op position)).findSome?
        (Node.fault? (levels + 1))) = (operand.nodes.findSome? (Node.fault? levels)).map
          (Fault.under [.key op.keyword, .index position]) := by
      rw [List.findSome?_map, List.map_findSome?]
      congr 1
      funext node
      exact node.fault?_under levels position op
    rw [nodesOfAll, List.findSome?_append, first, ← outcomeOf_bind, ← ih, ← mapError_outcomeOf,
      ← each, checkOperands_cons]
    cases operand.check levels with
    | ok _ => rfl
    | error fault => cases fault <;> rfl

/-- **The check finds the fault of the first faulty node in pre-order.** -/
theorem check_eq_outcomeOf (levels : Nat) (filter : Filter) :
    filter.check levels = outcomeOf (filter.nodes.findSome? (Node.fault? levels)) := by
  induction levels generalizing filter with
  | zero => cases filter <;> rfl
  | succ levels ih =>
    cases filter with
    | always => rfl
    | compare op field value =>
      rw [check, nodes, List.findSome?_singleton]
      simp only [Node.fault?, Node.level, partFault?]
      cases checkComparison op field value <;> rfl
    | combine op operands =>
      rw [check, nodes, List.findSome?_cons]
      by_cases few : operands.length < 2
      · simp [Node.fault?, Node.level, partFault?, few]
        rfl
      · simp only [Node.fault?, Node.level, partFault?, few]
        exact checkOperands_eq_outcomeOf ih op operands 0

/-- The faults that the check looks for are those of the node. -/
theorem Node.hasFault_iff {limit : Nat} {node : Node} {error : FilterError}
    (root : node.part = .always → node.steps ≠ []) :
    node.HasFault limit error ↔
      ∃ fault, node.fault? limit = some fault ∧ fault.atLimit limit = error := by
  unfold fault?
  constructor
  · intro has
    cases has with
    | tooDeep deep => exact ⟨.tooDeep, if_pos deep, rfl⟩
    | nested level part below =>
      refine ⟨.refused node.path .emptyExpression, ?_, rfl⟩
      simp [Nat.not_lt.2 level, part, partFault?, Fault.under]
    | @comparison op field value reason level part fault =>
      refine ⟨.refused (node.path ++ [.key op.keyword]) reason, ?_, rfl⟩
      have refused := checkComparison_eq_error_iff.2 fault
      simp [Nat.not_lt.2 level, part, partFault?, refused, Fault.under]
    | @fewOperands op operands level part few =>
      refine ⟨.refused (node.path ++ [.key op.keyword]) (.tooFewOperands operands.length), ?_, rfl⟩
      simp [Nat.not_lt.2 level, part, partFault?, few, Fault.under]
  · rintro ⟨fault, found, rfl⟩
    split at found
    · next deep =>
      cases found
      exact .tooDeep deep
    · next level =>
      obtain ⟨inner, own, rfl⟩ := Option.map_eq_some_iff.1 found
      have level := Nat.not_lt.1 level
      cases part : node.part with
      | always =>
        rw [part] at own
        cases own
        simpa [Fault.under, Fault.atLimit] using HasFault.nested level part (root part)
      | compare op field value =>
        rw [part, partFault?] at own
        split at own
        · cases own
        · next refused =>
          cases own
          exact .comparison level part (checkComparison_eq_error_iff.1 refused)
      | combine op operands =>
        rw [part, partFault?] at own
        split at own
        · next few =>
          cases own
          exact .fewOperands level part few
        · cases own

theorem Node.not_faulty_iff {limit : Nat} {node : Node}
    (root : node.part = .always → node.steps ≠ []) :
    ¬node.Faulty limit ↔ node.fault? limit = none := by
  constructor
  · intro sound
    cases found : node.fault? limit with
    | none => rfl
    | some fault => exact absurd ⟨_, (hasFault_iff root).2 ⟨fault, found, rfl⟩⟩ sound
  · rintro none ⟨error, has⟩
    obtain ⟨fault, found, -⟩ := (hasFault_iff root).1 has
    rw [none] at found
    cases found

/-! ## Sound nodes -/

theorem Node.sound_under_iff (op : Connective) (position : Nat) (node : Node) :
    (node.under op position).Sound ↔ node.part ≠ .always ∧ node.Sound := by
  unfold Sound
  rw [part_under]
  cases part : node.part with
  | always => simp [steps_under_ne_nil]
  | _ => simp

mutual

theorem wellFormed_iff_sound : (filter : Filter) →
    (filter.WellFormed ↔ ∀ node ∈ filter.nodes, node.part ≠ .always ∧ node.Sound)
  | .always => by simp [WellFormed, nodes]
  | .compare op field value => by simp [WellFormed, nodes, Node.Sound]
  | .combine op operands => by
    rw [WellFormed, nodes, List.forall_mem_cons, allWellFormed_iff_sound op operands 0]
    simp [Node.Sound]

theorem allWellFormed_iff_sound (op : Connective) : (operands : List Filter) → (position : Nat) →
    (AllWellFormed operands ↔
      ∀ node ∈ nodesOfAll op position operands, node.part ≠ .always ∧ node.Sound)
  | [], _ => by simp [AllWellFormed, nodesOfAll]
  | operand :: rest, position => by
    rw [AllWellFormed, nodesOfAll, List.forall_mem_append, List.forall_mem_map,
      wellFormed_iff_sound operand, allWellFormed_iff_sound op rest (position + 1)]
    simp [Node.sound_under_iff]

end

theorem validate_eq_ok_iff_sound (limit : Nat) (filter : Filter) :
    filter.validate limit = .ok () ↔
      1 ≤ limit ∧ filter.depth ≤ limit ∧ ∀ node ∈ filter.nodes, node.Sound := by
  by_cases always : filter = .always
  · subst always
    cases limit <;> simp [validate, depth, nodes, Node.Sound]
  · rw [validate_of_ne_always always, check_eq_ok_iff, wellFormed_iff_sound]
    constructor
    · rintro ⟨sound, deep⟩
      have positive := ((wellFormed_iff_sound filter).2 sound).depth_pos
      exact ⟨Nat.le_trans positive deep, deep, fun node mem => (sound node mem).2⟩
    · rintro ⟨-, deep, sound⟩
      refine ⟨fun node mem => ⟨fun part => ?_, sound node mem⟩, deep⟩
      -- `always` is only sound at the root, and the root is something else
      have root : node.steps = [] := by simpa [Node.Sound, part] using sound node mem
      exact always ((part_eq_of_steps_eq_nil mem root).symm.trans part)

theorem validate_always_eq_error_iff {limit : Nat} {error : FilterError} :
    validate limit .always = .error error ↔ Node.HasFault limit ⟨[], .always⟩ error := by
  rw [validate]
  constructor
  · intro refused
    split at refused
    · next zero =>
      cases refused
      exact .tooDeep (by simp [zero, Node.level])
    · cases refused
  · intro has
    cases has with
    | tooDeep deep => exact if_pos (by simpa [Node.level] using deep)
    | nested _ _ below => exact absurd rfl below
    | comparison _ part => cases part
    | fewOperands _ part => cases part

/-- The path of a fault spells the way to the node, and ends with the operator of the node. -/
theorem Node.HasFault.path_text {limit : Nat} {node : Node} {path : Path} {reason : Reason}
    (has : node.HasFault limit (.invalid path reason)) :
    path.text = "filter" ++ String.join (node.steps.map stepText) ++ node.operatorText := by
  unfold operatorText
  cases has with
  | nested _ part => rw [part, node.path_text, String.append_empty]
  | comparison _ part => rw [part, Path.text_append_key, node.path_text, String.append_assoc]
  | fewOperands _ part => rw [part, Path.text_append_key, node.path_text, String.append_assoc]

/-- **Validation accepts a filter exactly if all its nodes are sound and it is not too deep, and
refuses any other for its first faulty node in pre-order**, at the path of that node. -/
theorem validate_finds_first_fault (limit : Nat) (filter : Filter) :
    (filter.validate limit = .ok () ↔
      1 ≤ limit ∧ filter.depth ≤ limit ∧ ∀ node ∈ filter.nodes, node.Sound) ∧
    (∀ error, filter.validate limit = .error error ↔
      ∃ before node after, filter.nodes = before ++ node :: after ∧
        (∀ earlier ∈ before, ¬earlier.Faulty limit) ∧ node.HasFault limit error) ∧
    ∀ (node : Node) (path : Path) (reason : Reason), node.HasFault limit (.invalid path reason) →
      path.text = "filter" ++ String.join (node.steps.map Node.stepText) ++ node.operatorText := by
  refine ⟨validate_eq_ok_iff_sound limit filter, fun error => ?_, fun _ _ _ has => has.path_text⟩
  by_cases always : filter = .always
  · subst always
    rw [validate_always_eq_error_iff]
    constructor
    · exact fun has => ⟨[], _, [], rfl, List.forall_mem_nil _, has⟩
    · rintro ⟨before, node, after, split, -, has⟩
      obtain ⟨rfl, rest⟩ | ⟨-, rest⟩ := List.append_eq_singleton_iff.1 split.symm
      · obtain ⟨rfl, -⟩ := List.cons.inj rest
        exact has
      · cases rest
  · have root : ∀ node ∈ filter.nodes, node.part = .always → node.steps ≠ [] := by
      intro node mem part steps
      exact always ((part_eq_of_steps_eq_nil mem steps).symm.trans part)
    rw [validate_eq_check always, check_eq_outcomeOf, mapError_outcomeOf]
    have outcome :
        outcomeOf ((filter.nodes.findSome? (Node.fault? limit)).map (Fault.atLimit limit)) =
          .error error ↔ ∃ fault, filter.nodes.findSome? (Node.fault? limit) = some fault ∧
            fault.atLimit limit = error := by
      cases filter.nodes.findSome? (Node.fault? limit) <;> simp [outcomeOf]
    rw [outcome]
    constructor
    · rintro ⟨fault, found, rfl⟩
      obtain ⟨before, node, after, split, here, none⟩ := List.findSome?_eq_some_iff.1 found
      have inside : ∀ other ∈ before ++ node :: after, other ∈ filter.nodes := by simp [split]
      refine ⟨before, node, after, split, fun earlier mem => ?_, ?_⟩
      · have mem' := inside earlier (List.mem_append_left _ mem)
        exact (Node.not_faulty_iff (root earlier mem')).2 (none earlier mem)
      · have mem' := inside node (List.mem_append_right _ List.mem_cons_self)
        exact (Node.hasFault_iff (root node mem')).2 ⟨fault, here, rfl⟩
    · rintro ⟨before, node, after, split, sound, has⟩
      have inside : ∀ other ∈ before ++ node :: after, other ∈ filter.nodes := by simp [split]
      have mem := inside node (List.mem_append_right _ List.mem_cons_self)
      obtain ⟨fault, here, same⟩ := (Node.hasFault_iff (root node mem)).1 has
      refine ⟨fault, List.findSome?_eq_some_iff.2 ⟨before, node, after, split, here, ?_⟩, same⟩
      intro earlier mem
      have mem' := inside earlier (List.mem_append_left _ mem)
      exact (Node.not_faulty_iff (root earlier mem')).1 (sound earlier mem)

/-- Behind a sound operand with operands of its own, an empty list comes before an empty name. -/
theorem validate_finds_first_fault_behind_sound :
    let sound := combine .or
      [compare .eq "a" (.scalar (.bool true)), compare .lt "b" (.scalar (.bool true))]
    let faulty := compare .oneOf "c" (.list [])
    let filter := combine .and [sound, combine .or [faulty, compare .eq "" (.scalar (.bool true))]]
    let path : Path := [.key "$and", .index 1, .key "$or", .index 0, .key "$in"]
    filter.validate 3 = .error (.invalid path (.emptyList .oneOf)) ∧
      path.text = "filter.$and[1].$or[0].$in" := by
  intro sound faulty filter path
  have fault : ComparisonFault .oneOf "c" (.list []) (.emptyList .oneOf) :=
    .literal (by decide) (.emptyList rfl)
  have has : Node.HasFault 3 ⟨[(.and, 1), (.or, 0)], faulty⟩ (.invalid path (.emptyList .oneOf)) :=
    .comparison (by decide) rfl fault
  obtain ⟨-, refused, texts⟩ := validate_finds_first_fault 3 filter
  refine ⟨(refused _).2 ⟨filter.nodes.take 5, _, filter.nodes.drop 6, rfl, ?_, has⟩, ?_⟩
  · have none : ∀ earlier ∈ filter.nodes.take 5,
        earlier.part.isAlways = false ∧ earlier.fault? 3 = none := by decide
    intro earlier mem
    refine (Node.not_faulty_iff fun always => ?_).2 (none earlier mem).2
    simpa [always, isAlways] using (none earlier mem).1
  · exact (texts _ _ _ has).trans (by decide)

/-! ## One path for the whole walk -/

mutual

/-- Checks a filter that stands at a level, with one path for the whole walk. A node puts its
operator behind the path, and cuts it off when there is nothing at fault. -/
def walk (limit : Nat) (path : Path) (level : Nat) (filter : Filter) : Except FilterError Path :=
  if limit < level then .error (.depthExceeded limit)
  else
    match filter with
    | .always => if level = 1 then .ok path else .error (.invalid path .emptyExpression)
    | .compare op field value =>
      let longer := path ++ [.key op.keyword]
      match checkComparison op field value with
      | .ok _ => .ok (longer.take path.length)
      | .error reason => .error (.invalid longer reason)
    | .combine op operands =>
      let longer := path ++ [.key op.keyword]
      if operands.length < 2 then .error (.invalid longer (.tooFewOperands operands.length))
      else (walkOperands limit longer (level + 1) 0 operands).map (List.take path.length)

/-- Behind each operand its position is cut off again. -/
def walkOperands (limit : Nat) (path : Path) (level position : Nat) :
    List Filter → Except FilterError Path
  | [] => .ok path
  | operand :: rest => do
    let longer ← walk limit (path ++ [.index position]) level operand
    walkOperands limit (longer.take path.length) level (position + 1) rest

end

/-- What a walk that began with the path comes to: the fault that was found, at its place below the
path, or the path as it was. -/
def walked (limit : Nat) (path : Path) : Except Fault Unit → Except FilterError Path
  | .ok _ => .ok path
  | .error fault => .error ((fault.under path).atLimit limit)

theorem walked_error_under (limit : Nat) (path enclosing : Path) (fault : Fault) :
    walked limit path (.error (fault.under enclosing)) =
      walked limit (path ++ enclosing) (.error fault) := by
  rw [walked, walked, Fault.under_under]

theorem walkOperands_eq_walked {limit level levels : Nat}
    (each : ∀ (filter : Filter) (path : Path),
      walk limit path level filter = walked limit path (filter.check levels))
    (operands : List Filter) (path : Path) (position : Nat) :
    walkOperands limit path level position operands =
      walked limit path (checkOperands levels position operands) := by
  induction operands generalizing position with
  | nil => rfl
  | cons operand rest ih =>
    rw [walkOperands, each, checkOperands_cons]
    cases operand.check levels with
    | ok _ =>
      have cut : List.take path.length (path ++ [Segment.index position]) = path := List.take_left
      exact (congrArg (walkOperands limit · level (position + 1) rest) cut).trans
        (ih (position + 1))
    | error fault => exact (walked_error_under limit path _ fault).symm

/-- The level of a node and the levels that are left from it on make up the limit. -/
theorem walk_eq_walked {limit : Nat} (levels : Nat) (filter : Filter) (path : Path) (level : Nat)
    (total : level + levels = limit + 1) (positive : 0 < level)
    (root : filter = .always → level ≠ 1) :
    walk limit path level filter = walked limit path (filter.check levels) := by
  induction levels generalizing filter path level with
  | zero =>
    have deep : limit < level := by omega
    cases filter <;> rw [walk, if_pos deep] <;> rfl
  | succ levels ih =>
    have fits : ¬limit < level := by omega
    cases filter with
    | always =>
      rw [walk, if_neg fits, if_neg (root rfl), check, walked, Fault.under, List.append_nil]
      rfl
    | compare op field value =>
      rw [walk, if_neg fits, check]
      cases checkComparison op field value with
      | ok _ => exact congrArg Except.ok List.take_left
      | error reason => rfl
    | combine op operands =>
      rw [walk, if_neg fits, check]
      by_cases few : operands.length < 2
      · rw [if_pos few, if_pos few]
        rfl
      · -- an operand is below the root, so `always` is refused in its place
        have each (operand : Filter) (path : Path) :=
          ih operand path (level + 1) (by omega) (Nat.succ_pos level) fun _ => by omega
        rw [if_neg few, if_neg few, walkOperands_eq_walked each]
        cases checkOperands levels 0 operands with
        | ok _ => exact congrArg Except.ok List.take_left
        | error fault => exact (walked_error_under limit path _ fault).symm

/-- **One path is enough for the whole walk**, since what a node puts behind it is cut off again. -/
theorem validate_eq_walk (limit : Nat) (filter : Filter) :
    filter.validate limit = (walk limit [] 1 filter).map fun _ => () := by
  by_cases always : filter = .always
  · subst always
    cases limit <;> rfl
  · rw [validate_eq_check always,
      walk_eq_walked limit filter [] 1 (Nat.add_comm 1 limit) Nat.one_pos (absurd · always)]
    cases filter.check limit with
    | ok _ => rfl
    | error fault => rw [walked, Fault.under_nil]; rfl

end MetadataFilter.Filter
