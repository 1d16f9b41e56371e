import MetadataFilter.Filter.ListTypes
import MetadataFilter.Proofs.Filter.Validation

/-!
# Mixed lists in a filter

`Filter.checkListTypes` looks at every list of a filter, under any operator, and refuses the filter
for the first one in pre-order that mixes families: at the path of its comparison, for the family of
its first member and the family of the first member that is not of this one
(`Filter.checkListTypes_refuses_first`). Nothing else about the filter matters; it need not be well
formed. A filter that is has its lists under the operators on sets only, and is refused exactly if
one of them is mixed (`Filter.checkListTypes_eq_ok_iff`). A connective is refused for one of its
operands only (`Filter.checkListTypes_combine_iff`).

The same comes out of a walk with a single path (`Filter.checkListTypes_eq_walkLists`), which every
connective extends and leaves longer than it was, so that only the cut behind an operand restores
it.
-/

namespace MetadataFilter

/-! ## Lists -/

/-- Two members of the list are of different families. -/
def Scalar.Mixed (xs : List Scalar) : Prop := ∃ x ∈ xs, ∃ y ∈ xs, x.family ≠ y.family

theorem Scalar.mixedFamilies?_eq_none_iff (xs : List Scalar) :
    Scalar.mixedFamilies? xs = none ↔ ¬Scalar.Mixed xs := by
  cases xs with
  | nil => simp [Scalar.mixedFamilies?, Scalar.Mixed]
  | cons first rest =>
    rw [Scalar.mixedFamilies?, Option.map_eq_none_iff, List.find?_eq_none]
    constructor
    · rintro none ⟨x, hx, y, hy, differ⟩
      have same : ∀ z ∈ first :: rest, z.family = first.family := by
        intro z mem
        rcases List.mem_cons.1 mem with rfl | mem
        · rfl
        · simpa using none z mem
      exact differ ((same x hx).trans (same y hy).symm)
    · intro none x mem differ
      exact none ⟨x, List.mem_cons_of_mem first mem, first, List.mem_cons_self,
        of_decide_eq_true differ⟩

/-- The family of the first member of a list, and that of the first member of another family. -/
inductive Scalar.Mixes : List Scalar → Family → Family → Prop
  | first_other {first other : Scalar} {alike rest : List Scalar}
      (same : ∀ x ∈ alike, x.family = first.family) (differs : other.family ≠ first.family) :
      Mixes (first :: alike ++ other :: rest) first.family other.family

theorem Scalar.mixedFamilies?_eq_some_iff {xs : List Scalar} {first other : Family} :
    Scalar.mixedFamilies? xs = some (first, other) ↔ Scalar.Mixes xs first other := by
  constructor
  · intro found
    cases xs with
    | nil => cases found
    | cons x xs =>
      obtain ⟨y, here, same⟩ := Option.map_eq_some_iff.1 found
      obtain ⟨differs, alike, rest, rfl, none⟩ := List.find?_eq_some_iff_append.1 here
      cases same
      exact .first_other (fun z mem => by simpa using none z mem) (of_decide_eq_true differs)
  · rintro ⟨same, differs⟩
    rw [List.cons_append, Scalar.mixedFamilies?, Option.map_eq_some_iff]
    refine ⟨_, List.find?_eq_some_iff_append.2 ⟨decide_eq_true differs, _, _, rfl, ?_⟩, rfl⟩
    intro x mem
    simpa using same x mem

theorem Scalar.exists_mixes_iff {xs : List Scalar} :
    (∃ first other, Scalar.Mixes xs first other) ↔ Scalar.Mixed xs := by
  have found : Scalar.mixedFamilies? xs ≠ none ↔ Scalar.Mixed xs := by
    rw [ne_eq, Scalar.mixedFamilies?_eq_none_iff, Classical.not_not]
  rw [← found, Option.ne_none_iff_exists', Prod.exists]
  simp only [Scalar.mixedFamilies?_eq_some_iff]

/-- Somewhere in the filter an operator on sets has a list with members of different families. -/
def Filter.HasMixedList (filter : Filter) : Prop :=
  ∃ place op field xs, filter.At place (.compare op field (.list xs)) ∧ op.isSet = true ∧
    Scalar.Mixed xs

namespace Filter

/-! ## Nodes -/

/-- The node is a comparison with a list that mixes the two families. -/
inductive Node.MixesList (node : Node) : CompareOp → Family → Family → Prop
  | compare {op : CompareOp} {field : String} {xs : List Scalar} {first other : Family}
      (part : node.part = .compare op field (.list xs)) (mixes : Scalar.Mixes xs first other) :
      MixesList node op first other

/-- The mixed list of a node, with the path from the root. -/
def Node.mixedList? (node : Node) : Option (Path × Family × Family) :=
  match node.part with
  | .compare op _ value =>
    value.mixedFamilies?.map fun families => (node.path ++ [.key op.keyword], families)
  | _ => none

theorem Node.mixedList?_under (op : Connective) (position : Nat) (node : Node) :
    (node.under op position).mixedList? = node.mixedList?.map fun (path, families) =>
      (.key op.keyword :: .index position :: path, families) := by
  unfold Node.mixedList?
  rw [part_under, path_under]
  cases node.part with
  | always => rfl
  | compare op field value =>
    simp only [Option.map_map]
    rfl
  | combine op operands => rfl

theorem Node.mixedList?_eq_some_iff {node : Node} {found : Path × Family × Family} :
    node.mixedList? = some found ↔ ∃ op first other, node.MixesList op first other ∧
      found = (node.path ++ [.key op.keyword], first, other) := by
  constructor
  · intro here
    unfold Node.mixedList? at here
    split at here
    · next op field value part =>
      obtain ⟨⟨first, other⟩, mixed, rfl⟩ := Option.map_eq_some_iff.1 here
      cases value with
      | scalar x => cases mixed
      | list xs =>
        exact ⟨op, first, other, .compare part (Scalar.mixedFamilies?_eq_some_iff.1 mixed), rfl⟩
    · cases here
  · rintro ⟨op, first, other, ⟨part, mixes⟩, rfl⟩
    simp only [Node.mixedList?, part, Literal.mixedFamilies?,
      Scalar.mixedFamilies?_eq_some_iff.2 mixes, Option.map_some]

theorem Node.mixedList?_eq_none_iff {node : Node} :
    node.mixedList? = none ↔ ∀ op first other, ¬node.MixesList op first other := by
  rw [Option.eq_none_iff_forall_ne_some]
  constructor
  · intro none op first other mixes
    exact none _ (Node.mixedList?_eq_some_iff.2 ⟨op, first, other, mixes, rfl⟩)
  · intro none found here
    obtain ⟨op, first, other, mixes, -⟩ := Node.mixedList?_eq_some_iff.1 here
    exact none op first other mixes

theorem Node.mixedList?_eq_none_iff_same {node : Node} :
    node.mixedList? = none ↔ ∀ op field xs, node.part = .compare op field (.list xs) →
      ∀ x ∈ xs, ∀ y ∈ xs, x.family = y.family := by
  rw [Node.mixedList?_eq_none_iff]
  constructor
  · intro none op field xs part x hx y hy
    apply Classical.byContradiction
    intro differ
    obtain ⟨first, other, mixes⟩ := Scalar.exists_mixes_iff.2 ⟨x, hx, y, hy, differ⟩
    exact none op first other (.compare part mixes)
  · rintro same op first other ⟨part, mixes⟩
    obtain ⟨x, hx, y, hy, differ⟩ := Scalar.exists_mixes_iff.1 ⟨first, other, mixes⟩
    exact differ (same _ _ _ part x hx y hy)

/-! ## The search finds the first -/

mutual

/-- The search stops at the first node in pre-order that has a mixed list. -/
theorem mixedList?_eq_findSome? : (filter : Filter) →
    filter.mixedList? = filter.nodes.findSome? Node.mixedList?
  | .always => rfl
  | .compare op field value => by
    rw [mixedList?, nodes, List.findSome?_singleton]
    rfl
  | .combine op operands => by
    rw [mixedList?, nodes, List.findSome?_cons, ← mixedListAmong?_eq_findSome? op operands 0]
    rfl

theorem mixedListAmong?_eq_findSome? (op : Connective) : (operands : List Filter) →
    (position : Nat) →
    (mixedListAmong? position operands).map (fun (path, families) =>
      (.key op.keyword :: path, families)) =
        (nodesOfAll op position operands).findSome? Node.mixedList?
  | [], _ => rfl
  | operand :: rest, position => by
    -- seen from the connective, the operand's own mixed list lies two steps further down
    have first : (operand.nodes.map (Node.under op position)).findSome? Node.mixedList? =
        operand.mixedList?.map fun (path, families) =>
          (.key op.keyword :: .index position :: path, families) := by
      rw [List.findSome?_map, mixedList?_eq_findSome? operand, List.map_findSome?]
      congr 1
      funext node
      exact node.mixedList?_under op position
    rw [mixedListAmong?, nodesOfAll, List.findSome?_append, first,
      ← mixedListAmong?_eq_findSome? op rest (position + 1)]
    cases operand.mixedList? <;> rfl

end

theorem checkListTypes_eq_ok_iff_mixedList? {filter : Filter} :
    filter.checkListTypes = .ok () ↔ filter.mixedList? = none := by
  rw [checkListTypes]
  cases filter.mixedList? <;> simp

theorem checkListTypes_eq_error_iff_mixedList? {filter : Filter} {error : FilterError} :
    filter.checkListTypes = .error error ↔ ∃ path first other,
      filter.mixedList? = some (path, first, other) ∧
        error = .invalid path (.mixedList first other) := by
  unfold checkListTypes
  cases filter.mixedList? with
  | none => simp
  | some found =>
    constructor
    · rintro ⟨⟩
      exact ⟨_, _, _, rfl, rfl⟩
    · rintro ⟨path, first, other, ⟨⟩, rfl⟩
      rfl

theorem checkListTypes_eq_ok_iff_same {filter : Filter} :
    filter.checkListTypes = .ok () ↔
      ∀ node ∈ filter.nodes, ∀ op field xs, node.part = .compare op field (.list xs) →
        ∀ x ∈ xs, ∀ y ∈ xs, x.family = y.family := by
  rw [checkListTypes_eq_ok_iff_mixedList?, mixedList?_eq_findSome?, List.findSome?_eq_none_iff]
  simp only [Node.mixedList?_eq_none_iff_same]

/-- **A well-formed filter is refused exactly if it has a mixed list**, wherever it stands. -/
theorem checkListTypes_eq_ok_iff {filter : Filter} (h : filter = .always ∨ filter.WellFormed) :
    filter.checkListTypes = .ok () ↔ ¬filter.HasMixedList := by
  have set : ∀ node ∈ filter.nodes, ∀ op field xs, node.part = .compare op field (.list xs) →
      op.isSet = true := by
    intro node mem op field xs part
    rcases h with rfl | wellFormed
    · obtain rfl := List.mem_singleton.1 mem
      cases part
    · have sound := ((wellFormed_iff_sound filter).1 wellFormed node mem).2
      simp only [Node.Sound, part, Literal.Fits] at sound
      exact sound.2.1
  rw [checkListTypes_eq_ok_iff_same]
  constructor
  · rintro same ⟨place, op, field, xs, located, -, x, hx, y, hy, differ⟩
    obtain ⟨node, mem, -, part⟩ := at_iff_exists_node.1 located
    exact differ (same node mem op field xs part x hx y hy)
  · intro none node mem op field xs part x hx y hy
    apply Classical.byContradiction
    intro differ
    exact none ⟨node.path, op, field, xs, at_iff_exists_node.2 ⟨node, mem, rfl, part⟩,
      set node mem op field xs part, x, hx, y, hy, differ⟩

/-- The operands of a connective are checked independent of each other. -/
theorem checkListTypes_combine_iff {op : Connective} {operands : List Filter} :
    (combine op operands).checkListTypes = .ok () ↔
      ∀ operand ∈ operands, operand.checkListTypes = .ok () := by
  simp only [checkListTypes_eq_ok_iff_same]
  refine (forall_nodes_combine_iff (p := fun part => ∀ op field xs,
    part = .compare op field (.list xs) → ∀ x ∈ xs, ∀ y ∈ xs, x.family = y.family)).trans ?_
  exact and_iff_right nofun

theorem mixedList_of_checkListTypes {filter : Filter} {error : FilterError}
    (h : filter.checkListTypes = .error error) :
    ∃ path first other, error = .invalid path (.mixedList first other) := by
  obtain ⟨path, first, other, -, rfl⟩ := checkListTypes_eq_error_iff_mixedList?.1 h
  exact ⟨path, first, other, rfl⟩

theorem checkListTypes_eq_error_iff {filter : Filter} {error : FilterError} :
    filter.checkListTypes = .error error ↔
      ∃ before node after op first other, filter.nodes = before ++ node :: after ∧
        (∀ earlier ∈ before, ∀ op first other, ¬earlier.MixesList op first other) ∧
        node.MixesList op first other ∧
        error = .invalid (node.path ++ [.key op.keyword]) (.mixedList first other) := by
  rw [checkListTypes_eq_error_iff_mixedList?, mixedList?_eq_findSome?]
  constructor
  · rintro ⟨path, first, other, found, rfl⟩
    obtain ⟨before, node, after, split, here, none⟩ := List.findSome?_eq_some_iff.1 found
    obtain ⟨op, _, _, mixes, ⟨⟩⟩ := Node.mixedList?_eq_some_iff.1 here
    exact ⟨before, node, after, op, _, _, split,
      fun earlier mem => Node.mixedList?_eq_none_iff.1 (none earlier mem), mixes, rfl⟩
  · rintro ⟨before, node, after, op, first, other, split, none, mixes, rfl⟩
    refine ⟨_, _, _, List.findSome?_eq_some_iff.2 ⟨before, node, after, split, ?_, ?_⟩, rfl⟩
    · exact Node.mixedList?_eq_some_iff.2 ⟨op, first, other, mixes, rfl⟩
    · exact fun earlier mem => Node.mixedList?_eq_none_iff.2 (none earlier mem)

mutual

/-- Looks for a mixed list with one path for the whole walk. A connective leaves its keyword at the
end of the path. -/
def walkLists (path : Path) : Filter → Except FilterError Path
  | .always => .ok path
  | .compare op _ value =>
    match value.mixedFamilies? with
    | none => .ok path
    | some (first, other) => .error (.invalid (path ++ [.key op.keyword]) (.mixedList first other))
  | .combine op operands => walkAllLists (path ++ [.key op.keyword]) 0 operands

/-- Behind each operand the path is cut back to the length it had before. -/
def walkAllLists (path : Path) (position : Nat) : List Filter → Except FilterError Path
  | [] => .ok path
  | operand :: rest => do
    let longer ← walkLists (path ++ [.index position]) operand
    walkAllLists (longer.take path.length) (position + 1) rest

end

/-- What a walk that began with the path comes to: the mixed list that was found, at its place below
the path, or the path with something left behind it. -/
def walkOutcome (path left : Path) : Option (Path × Family × Family) → Except FilterError Path
  | none => .ok (path ++ left)
  | some (place, first, other) => .error (.invalid (path ++ place) (.mixedList first other))

mutual

/-- A walk keeps its path as a prefix. -/
theorem walkLists_eq_outcome : (filter : Filter) → (path : Path) →
    ∃ left, walkLists path filter = walkOutcome path left filter.mixedList?
  | .always, path => ⟨[], by rw [walkLists, mixedList?, walkOutcome, List.append_nil]⟩
  | .compare op field value, path => by
    refine ⟨[], ?_⟩
    rw [walkLists, mixedList?]
    cases value.mixedFamilies? with
    | none => exact congrArg Except.ok (List.append_nil path).symm
    | some families => rfl
  | .combine op operands, path => by
    -- the keyword stays behind the path, though the operands leave nothing
    refine ⟨[.key op.keyword], ?_⟩
    rw [walkLists, mixedList?, walkAllLists_eq_outcome operands]
    cases mixedListAmong? 0 operands with
    | none => exact congrArg Except.ok (List.append_nil _)
    | some found => simp [walkOutcome]

/-- A walk over operands gives the path back as it was. -/
theorem walkAllLists_eq_outcome : (operands : List Filter) → (path : Path) → (position : Nat) →
    walkAllLists path position operands =
      walkOutcome path [] (mixedListAmong? position operands)
  | [], path, position => congrArg Except.ok (List.append_nil path).symm
  | operand :: rest, path, position => by
    obtain ⟨left, walked⟩ := walkLists_eq_outcome operand (path ++ [.index position])
    rw [walkAllLists, mixedListAmong?, walked]
    cases operand.mixedList? with
    | none =>
      -- whatever the operand left behind the path is cut off
      have cut : List.take path.length (path ++ [Segment.index position] ++ left) = path := by
        rw [List.append_assoc, List.take_left]
      rw [← walkAllLists_eq_outcome rest path (position + 1)]
      exact congrArg (walkAllLists · (position + 1) rest) cut
    | some found => simp [walkOutcome, bind, Except.bind]

end

/-- **One path is enough for the whole walk**, though connectives do not restore it. -/
theorem checkListTypes_eq_walkLists (filter : Filter) :
    filter.checkListTypes = (walkLists [] filter).map fun _ => () := by
  obtain ⟨left, walked⟩ := filter.walkLists_eq_outcome []
  rw [walked, checkListTypes]
  cases filter.mixedList? <;> rfl

end Filter

end MetadataFilter
