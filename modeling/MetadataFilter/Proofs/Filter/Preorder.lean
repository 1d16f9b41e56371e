import MetadataFilter.Proofs.Filter.Place

/-!
# The nodes of a filter in pre-order

`Filter.nodes` lists the nodes of a filter: each connective before its operands, and the operands
from left to right. A node is known by the steps that lead to it from the root, each from a
connective to one of its operands. The path of a node spells its steps (`Filter.Node.path_text`),
and the nodes are the parts of the filter at their places (`Filter.at_iff_exists_node`).
-/

namespace MetadataFilter.Filter

/-- A part of a filter and the steps that lead to it: connectives, and positions of operands. -/
structure Node where
  steps : List (Connective × Nat)
  part : Filter

namespace Node

/-- The root is at level 1. -/
def level (node : Node) : Nat := node.steps.length + 1

def path (node : Node) : Path :=
  node.steps.flatMap fun (op, position) => [.key op.keyword, .index position]

/-- The node seen from a connective that has the filter as its operand. -/
def under (op : Connective) (position : Nat) (node : Node) : Node :=
  ⟨(op, position) :: node.steps, node.part⟩

@[simp] theorem level_under (op : Connective) (position : Nat) (node : Node) :
    (node.under op position).level = node.level + 1 := rfl

@[simp] theorem path_under (op : Connective) (position : Nat) (node : Node) :
    (node.under op position).path = .key op.keyword :: .index position :: node.path := rfl

@[simp] theorem part_under (op : Connective) (position : Nat) (node : Node) :
    (node.under op position).part = node.part := rfl

theorem steps_under_ne_nil (op : Connective) (position : Nat) (node : Node) :
    (node.under op position).steps ≠ [] := List.cons_ne_nil _ _

/-- What one step adds to the text of a path. -/
def stepText (step : Connective × Nat) : String :=
  "." ++ step.1.keyword ++ "[" ++ toString step.2 ++ "]"

/-- **The text of a path names the connectives on the way and the positions of the operands.** -/
theorem path_text (node : Node) :
    node.path.text = "filter" ++ String.join (node.steps.map stepText) := by
  obtain ⟨steps, part⟩ := node
  rw [Path.text_eq_join, path]
  congr 1
  induction steps with
  | nil => rfl
  | cons step steps ih =>
    rw [List.flatMap_cons, List.map_append, String.join_append, ih, List.map_cons, String.join_cons]
    simp [stepText, Segment.text, String.join_cons, String.append_assoc]

end Node

mutual

/-- The nodes of a filter in pre-order. -/
def nodes : Filter → List Node
  | .always => [⟨[], .always⟩]
  | .compare op field value => [⟨[], .compare op field value⟩]
  | .combine op operands => ⟨[], .combine op operands⟩ :: nodesOfAll op 0 operands

/-- The nodes of the operands of a connective, the first of which stands at `position`. -/
def nodesOfAll (op : Connective) (position : Nat) : List Filter → List Node
  | [] => []
  | operand :: rest =>
    operand.nodes.map (Node.under op position) ++ nodesOfAll op (position + 1) rest

end

theorem root_mem_nodes (filter : Filter) : ⟨[], filter⟩ ∈ filter.nodes := by
  cases filter <;> rw [nodes] <;> exact List.mem_cons_self

theorem mem_nodesOfAll_iff {op : Connective} {operands : List Filter} {position : Nat}
    {node : Node} :
    node ∈ nodesOfAll op position operands ↔ ∃ (i : Nat) (operand : Filter) (inner : Node),
      operands[i]? = some operand ∧ inner ∈ operand.nodes ∧
        node = inner.under op (position + i) := by
  induction operands generalizing position with
  | nil => simp [nodesOfAll]
  | cons operand rest ih =>
    rw [nodesOfAll, List.mem_append, List.mem_map, ih]
    constructor
    · rintro (⟨inner, mem, rfl⟩ | ⟨i, other, inner, here, mem, rfl⟩)
      · exact ⟨0, operand, inner, rfl, mem, rfl⟩
      · exact ⟨i + 1, other, inner, here, mem, by rw [Nat.add_right_comm, Nat.add_assoc]⟩
    · rintro ⟨i, other, inner, here, mem, rfl⟩
      cases i with
      | zero =>
        obtain rfl := Option.some.inj here
        exact .inl ⟨inner, mem, rfl⟩
      | succ i =>
        exact .inr ⟨i, other, inner, here, mem, by rw [Nat.add_right_comm, Nat.add_assoc]⟩

theorem forall_nodes_combine_iff {p : Filter → Prop} {op : Connective} {operands : List Filter} :
    (∀ node ∈ (combine op operands).nodes, p node.part) ↔
      p (combine op operands) ∧ ∀ operand ∈ operands, ∀ node ∈ operand.nodes, p node.part := by
  rw [nodes, List.forall_mem_cons]
  refine and_congr_right fun _ => ⟨?_, ?_⟩
  · intro each operand mem inner inside
    obtain ⟨i, here⟩ := List.getElem?_of_mem mem
    exact each (inner.under op (0 + i))
      (mem_nodesOfAll_iff.2 ⟨i, operand, inner, here, inside, rfl⟩)
  · intro each node below
    obtain ⟨i, operand, inner, here, inside, rfl⟩ := mem_nodesOfAll_iff.1 below
    exact each operand (List.mem_of_getElem? here) inner inside

/-- The node without steps is the filter itself. -/
theorem part_eq_of_steps_eq_nil {filter : Filter} {node : Node} (mem : node ∈ filter.nodes)
    (root : node.steps = []) : node.part = filter := by
  cases filter with
  | always => rw [List.mem_singleton.1 mem]
  | compare op field value => rw [List.mem_singleton.1 mem]
  | combine op operands =>
    rcases List.mem_cons.1 mem with rfl | below
    · rfl
    · obtain ⟨i, operand, inner, -, -, rfl⟩ := mem_nodesOfAll_iff.1 below
      exact absurd root (inner.steps_under_ne_nil op _)

theorem at_of_mem_nodes {filter part : Filter} {steps : List (Connective × Nat)}
    (mem : ⟨steps, part⟩ ∈ filter.nodes) : filter.At (Node.path ⟨steps, part⟩) part := by
  induction steps generalizing filter with
  | nil =>
    obtain rfl : part = filter := part_eq_of_steps_eq_nil mem rfl
    exact .root part
  | cons step steps ih =>
    cases filter with
    | always => cases List.mem_singleton.1 mem
    | compare op field value => cases List.mem_singleton.1 mem
    | combine op operands =>
      rcases List.mem_cons.1 mem with root | below
      · cases root
      · obtain ⟨i, operand, inner, here, inside, same⟩ := mem_nodesOfAll_iff.1 below
        rw [Nat.zero_add] at same
        cases same
        exact .operand here (ih inside)

/-- **The nodes are the parts of the filter**, each at its path. -/
theorem at_iff_exists_node {filter part : Filter} {place : Path} :
    filter.At place part ↔ ∃ node ∈ filter.nodes, node.path = place ∧ node.part = part := by
  constructor
  · intro located
    induction located with
    | root filter => exact ⟨_, filter.root_mem_nodes, rfl, rfl⟩
    | @operand op operands position operand part place here below ih =>
      obtain ⟨inner, mem, rfl, rfl⟩ := ih
      have inside : inner.under op position ∈ nodesOfAll op 0 operands :=
        mem_nodesOfAll_iff.2 ⟨position, operand, inner, here, mem, by rw [Nat.zero_add]⟩
      exact ⟨inner.under op position, List.mem_cons_of_mem _ inside, rfl, rfl⟩
  · rintro ⟨node, mem, rfl, rfl⟩
    exact at_of_mem_nodes mem

end MetadataFilter.Filter
