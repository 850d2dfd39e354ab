import Manifest.Parse.Iteration
import Manifest.Proofs.Tree.Places

/-!
# Walks and listings

A walk comes to each place of a tree once, in the order of the places: first what is above, then
what is further left.  A walk that keeps a stack of what is still to come gives the same nodes,
and a listing gives a line to each of them, indented by the length of its place.
-/

namespace Manifest

theorem mem_map_cons_iff {α : Type} {index : Nat} {place : List Nat} {value : α}
    {rows : List (List Nat × α)} :
    (place, value) ∈ rows.map (fun (place, value) => (index :: place, value)) ↔
      ∃ rest, place = index :: rest ∧ (rest, value) ∈ rows := by
  simp only [List.mem_map, Prod.exists, Prod.mk.injEq]
  constructor
  · rintro ⟨rest, _, hmem, rfl, rfl⟩
    exact ⟨rest, rfl, hmem⟩
  · rintro ⟨rest, rfl, hmem⟩
    exact ⟨rest, value, hmem, rfl, rfl⟩

namespace Node

variable {element : Node} {place : List Nat}

mutual

def placedWalk : Node → List (List Nat × Node)
  | ⟨offset, ownEnd?, form, children⟩ =>
      ([], ⟨offset, ownEnd?, form, children⟩) :: placedWalkAll 0 children

def placedWalkAll (index : Nat) : List Node → List (List Nat × Node)
  | [] => []
  | node :: nodes =>
      node.placedWalk.map (fun (place, element) => (index :: place, element)) ++
        placedWalkAll (index + 1) nodes

end

/-! ## The nodes of a walk -/

mutual

theorem map_snd_placedWalk : (node : Node) → node.placedWalk.map Prod.snd = node.walk
  | ⟨offset, ownEnd?, form, children⟩ => by
      rw [placedWalk, walk, List.map_cons, map_snd_placedWalkAll 0 children]

theorem map_snd_placedWalkAll (index : Nat) :
    (nodes : List Node) → (placedWalkAll index nodes).map Prod.snd = walkAll nodes
  | [] => rfl
  | node :: nodes => by
      rw [placedWalkAll, walkAll, List.map_append, List.map_map,
        ← map_snd_placedWalk node, ← map_snd_placedWalkAll (index + 1) nodes]
      rfl

end

mutual

theorem mem_placedWalk : (node : Node) → (place : List Nat) →
    ((place, element) ∈ node.placedWalk ↔ node.below? place = some element)
  | ⟨offset, ownEnd?, form, children⟩, [] => by
      rw [placedWalk, List.mem_cons, mem_placedWalkAll 0 children, below?]
      simp [eq_comm]
  | ⟨offset, ownEnd?, form, children⟩, index :: place => by
      rw [placedWalk, List.mem_cons, mem_placedWalkAll 0 children, below?_cons_iff]
      simp only [Prod.mk.injEq, reduceCtorEq, false_and, false_or, Nat.zero_add, List.cons.injEq]
      constructor
      · rintro ⟨further, child, rest, ⟨rfl, rfl⟩, hchild⟩
        exact ⟨child, hchild⟩
      · rintro ⟨child, hchild⟩
        exact ⟨index, child, place, ⟨rfl, rfl⟩, hchild⟩

theorem mem_placedWalkAll (index : Nat) : (nodes : List Node) → (place : List Nat) →
    ((place, element) ∈ placedWalkAll index nodes ↔
      ∃ (further : Nat) (child : Node) (rest : List Nat),
      place = (index + further) :: rest ∧ nodes[further]? = some child ∧
        child.below? rest = some element)
  | [], place => by simp [placedWalkAll]
  | node :: nodes, place => by
      rw [placedWalkAll, List.mem_append, mem_map_cons_iff, mem_placedWalkAll (index + 1) nodes]
      constructor
      · rintro (⟨rest, rfl, hmem⟩ | ⟨further, child, rest, rfl, hchild, hrest⟩)
        · exact ⟨0, node, rest, rfl, rfl, (mem_placedWalk node rest).1 hmem⟩
        · exact ⟨further + 1, child, rest, by rw [Nat.add_assoc, Nat.add_comm 1], hchild, hrest⟩
      · rintro ⟨further, child, rest, rfl, hchild, hrest⟩
        cases further with
        | zero =>
            obtain rfl := Option.some.inj hchild
            exact .inl ⟨rest, rfl, (mem_placedWalk node rest).2 hrest⟩
        | succ further =>
            exact .inr ⟨further, child, rest, by rw [Nat.add_assoc, Nat.add_comm 1], hchild, hrest⟩

end

/-! ## The order of the places -/

mutual

/-- The places of a walk ascend: a node stands before those below it, and what is below a child
before what is below the children on its right. -/
theorem pairwise_placedWalk : (node : Node) →
    (node.placedWalk.map Prod.fst).Pairwise (· < ·)
  | ⟨offset, ownEnd?, form, children⟩ => by
      rw [placedWalk, List.map_cons, List.pairwise_cons]
      refine ⟨fun place hplace => ?_, pairwise_placedWalkAll 0 children⟩
      obtain ⟨⟨place, element⟩, hmem, rfl⟩ := List.mem_map.1 hplace
      obtain ⟨further, child, rest, rfl, -, -⟩ := (mem_placedWalkAll 0 children place).1 hmem
      exact List.nil_lt_cons _ _

theorem pairwise_placedWalkAll (index : Nat) : (nodes : List Node) →
    ((placedWalkAll index nodes).map Prod.fst).Pairwise (· < ·)
  | [] => List.Pairwise.nil
  | node :: nodes => by
      rw [placedWalkAll, List.map_append, List.pairwise_append]
      refine ⟨?_, pairwise_placedWalkAll (index + 1) nodes, fun left hleft right hright => ?_⟩
      · have hbelow := pairwise_placedWalk node
        rw [List.pairwise_map] at hbelow ⊢
        rw [List.pairwise_map]
        exact hbelow.imp fun hlt => List.cons_lt_cons_self.2 hlt
      · obtain ⟨⟨left, element⟩, hmem, rfl⟩ := List.mem_map.1 hleft
        obtain ⟨⟨right, other⟩, hmem', rfl⟩ := List.mem_map.1 hright
        obtain ⟨rest, rfl, -⟩ := mem_map_cons_iff.1 hmem
        obtain ⟨further, child, rest', rfl, -, -⟩ :=
          (mem_placedWalkAll (index + 1) nodes right).1 hmem'
        exact List.cons_lt_cons_iff.2 (.inl (by omega))

end

/-- The rows are the nodes of a walk with their places: each node of the tree once, what is above
first, and then what is further left. -/
structure InOrder (root : Node) (rows : List (List Nat × Node)) : Prop where
  walked : rows.map Prod.snd = root.walk
  complete : ∀ place element, (place, element) ∈ rows ↔ root.below? place = some element
  ascending : (rows.map Prod.fst).Pairwise (· < ·)

theorem inOrder_placedWalk (root : Node) : root.InOrder root.placedWalk where
  walked := map_snd_placedWalk root
  complete := fun place _ => mem_placedWalk root place
  ascending := pairwise_placedWalk root

/-! ## Walks that keep a stack -/

/-- A walk under way: the nodes still to come, the next one last, and those already given. -/
structure Walking where
  stack : List Node
  given : List Node

namespace Walking

/-- Take the node on top of the stack, give it, and put its children on, the first one on top. -/
def step (walking : Walking) : Progress Walking :=
  match walking.stack.getLast? with
  | none => .done walking
  | some node =>
      .again ⟨walking.stack.dropLast ++ node.children.reverse, walking.given ++ [node]⟩

def start (root : Node) : Walking :=
  ⟨[root], []⟩

mutual

/-- The node on top of the stack and all below it are given before what is under it. -/
theorem goesOn_walk (stack given : List Node) : (node : Node) →
    GoesOn step node.walk.length ⟨stack ++ [node], given⟩ ⟨stack, given ++ node.walk⟩
  | ⟨offset, ownEnd?, form, children⟩ => by
      have hstep : step ⟨stack ++ [⟨offset, ownEnd?, form, children⟩], given⟩ =
          .again ⟨stack ++ children.reverse, given ++ [⟨offset, ownEnd?, form, children⟩]⟩ := by
        simp [step]
      have hbelow := goesOn_walkAll stack (given ++ [⟨offset, ownEnd?, form, children⟩]) children
      rw [List.append_assoc] at hbelow
      rw [walk, List.length_cons, Nat.add_comm]
      exact (goesOn_again hstep).trans hbelow

theorem goesOn_walkAll (stack given : List Node) : (nodes : List Node) →
    GoesOn step (walkAll nodes).length ⟨stack ++ nodes.reverse, given⟩
      ⟨stack, given ++ walkAll nodes⟩
  | [] => by
      rw [walkAll, List.reverse_nil, List.append_nil, List.append_nil]
      exact .refl _ _
  | node :: nodes => by
      rw [walkAll, List.length_append, List.reverse_cons, ← List.append_assoc stack,
        ← List.append_assoc given]
      exact (goesOn_walk (stack ++ nodes.reverse) given node).trans
        (goesOn_walkAll stack (given ++ node.walk) nodes)

end

/-- A walk with a stack is done after as many rounds as there are nodes, and has given them all. -/
theorem iterate_start (root : Node) {fuel : Nat} (hfuel : root.walk.length < fuel) :
    iterate step fuel (start root) = ⟨[], root.walk⟩ :=
  (goesOn_walk [] [] root).iterate_eq rfl hfuel

end Walking

/-! ## Listings -/

mutual

theorem linesAt_eq (indent : String) (depth : Nat) : (node : Node) →
    linesAt indent depth node = node.placedWalk.map fun (place, element) =>
      String.join (List.replicate (depth + place.length) indent) ++ element.line
  | ⟨offset, ownEnd?, form, children⟩ => by
      rw [linesAt, placedWalk, List.map_cons, linesOfAll_eq indent depth 0 children]
      rfl

theorem linesOfAll_eq (indent : String) (depth index : Nat) : (nodes : List Node) →
    linesOfAll indent (depth + 1) nodes = (placedWalkAll index nodes).map fun (place, element) =>
      String.join (List.replicate (depth + place.length) indent) ++ element.line
  | [] => rfl
  | node :: nodes => by
      rw [linesOfAll, placedWalkAll, List.map_append, linesAt_eq indent (depth + 1) node,
        linesOfAll_eq indent depth (index + 1) nodes, List.map_map]
      congr 1
      refine List.map_congr_left fun row _ => ?_
      simp only [Function.comp_apply, List.length_cons]
      rw [Nat.add_assoc, Nat.add_comm 1]

end

end Node

end Manifest
