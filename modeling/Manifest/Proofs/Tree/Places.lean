import Manifest.Proofs.Tree.Links
import Manifest.Proofs.Tree.Spans

/-!
# Places in a tree

A place says, from the root down, which child comes next.  Where nodes nest and children lie
apart, the places that hold an offset are the way to one of them, so that going into the first
child that holds it always comes to the deepest.
-/

namespace Manifest

namespace Node

variable {node element found child : Node} {place other : List Nat} {offset : Int}

/-- The node at a place. -/
def below? (node : Node) : List Nat → Option Node
  | [] => some node
  | index :: place => node.children[index]?.bind fun child => child.below? place

/-- The nodes above a place, the nearest first. -/
def above (node : Node) : List Nat → List Node
  | [] => []
  | index :: place =>
      (node.children[index]?.elim [] fun child => child.above place) ++ [node]

/-! ## Places and nodes -/

theorem below?_cons_iff {index : Nat} :
    node.below? (index :: place) = some element ↔
      ∃ child, node.children[index]? = some child ∧ child.below? place = some element :=
  Option.bind_eq_some_iff

theorem above_cons {index : Nat} (h : node.children[index]? = some child) :
    node.above (index :: place) = child.above place ++ [node] := by
  rw [above, h]
  rfl

mutual

theorem exists_place_walk : (node : Node) → ∀ element ∈ node.walk,
    ∃ place, node.below? place = some element
  | ⟨offset, ownEnd?, form, children⟩, element, helement => by
      rw [walk, List.mem_cons] at helement
      rcases helement with rfl | helement
      · exact ⟨[], rfl⟩
      · obtain ⟨index, child, place, hchild, hplace⟩ := exists_place_walkAll children element helement
        exact ⟨index :: place, below?_cons_iff.2 ⟨child, hchild, hplace⟩⟩

theorem exists_place_walkAll : (nodes : List Node) → ∀ element ∈ walkAll nodes,
    ∃ (index : Nat) (child : Node) (place : List Nat),
      nodes[index]? = some child ∧ child.below? place = some element
  | [], element, helement => by
      rw [walkAll] at helement
      cases helement
  | node :: nodes, element, helement => by
      rw [walkAll, List.mem_append] at helement
      rcases helement with helement | helement
      · obtain ⟨place, hplace⟩ := exists_place_walk node element helement
        exact ⟨0, node, place, rfl, hplace⟩
      · obtain ⟨index, child, place, hchild, hplace⟩ := exists_place_walkAll nodes element helement
        exact ⟨index + 1, child, place, hchild, hplace⟩

end

theorem mem_walk_iff : element ∈ node.walk ↔ ∃ place, node.below? place = some element := by
  refine ⟨exists_place_walk node element, ?_⟩
  rintro ⟨place, hplace⟩
  induction place generalizing node with
  | nil =>
      obtain rfl := Option.some.inj hplace
      cases node
      rw [walk]
      exact List.mem_cons_self
  | cons index place ih =>
      obtain ⟨child, hchild, hbelow⟩ := below?_cons_iff.1 hplace
      obtain ⟨start, ownEnd?, form, children⟩ := node
      rw [walk]
      exact List.mem_cons_of_mem _
        (mem_walkAll.2 ⟨child, List.mem_of_getElem? hchild, ih hbelow⟩)

theorem mem_above_iff (h : node.below? place = some found) :
    element ∈ node.above place ↔
      ∃ other, other <+: place ∧ other ≠ place ∧ node.below? other = some element := by
  induction place generalizing node with
  | nil =>
      refine ⟨fun hmem => (List.not_mem_nil hmem).elim, ?_⟩
      rintro ⟨other, hother, hne, -⟩
      exact (hne (List.prefix_nil.1 hother)).elim
  | cons index place ih =>
      obtain ⟨child, hchild, hbelow⟩ := below?_cons_iff.1 h
      rw [above_cons hchild, List.mem_append, List.mem_singleton, ih hbelow]
      constructor
      · rintro (⟨other, hother, hne, helement⟩ | rfl)
        · exact ⟨index :: other, (List.prefix_cons_inj index).2 hother,
            fun heq => hne (List.cons.inj heq).2, below?_cons_iff.2 ⟨child, hchild, helement⟩⟩
        · exact ⟨[], List.nil_prefix, nofun, rfl⟩
      · rintro ⟨other, hother, hne, helement⟩
        cases other with
        | nil => exact .inr (Option.some.inj helement).symm
        | cons first other =>
            obtain ⟨rfl, hbegins⟩ := List.cons_prefix_cons.1 hother
            obtain ⟨next, hnext, helement⟩ := below?_cons_iff.1 helement
            obtain rfl := Option.some.inj (hchild.symm.trans hnext)
            exact .inl ⟨other, hbegins, fun heq => hne (congrArg _ heq), helement⟩

/-! ## Offsets -/

theorem contains_iff :
    node.contains offset = true ↔ node.offset ≤ offset ∧ offset < node.endOffset :=
  decide_eq_true_iff

theorem Spanned.of_child (h : node.Spanned) (hchild : child ∈ node.children) : child.Spanned :=
  ((spanned_iff.1 h).2.mem hchild).2

theorem Spanned.contains_of_child (h : node.Spanned) (hchild : child ∈ node.children)
    (hcontains : child.contains offset = true) : node.contains offset = true := by
  have hstart := ((spanned_iff.1 h).2.mem hchild).1
  have hend : child.endOffset ≤ node.endOffset := by
    rw [endOffset_eq node]
    exact endOffset_child_le hchild
  rw [contains_iff] at hcontains ⊢
  omega

/-- A node holds what the nodes below it hold. -/
theorem Spanned.contains_of_below (h : node.Spanned) (hplace : node.below? place = some element)
    (hcontains : element.contains offset = true) : node.contains offset = true := by
  induction place generalizing node with
  | nil =>
      rw [Option.some.inj hplace]
      exact hcontains
  | cons index place ih =>
      obtain ⟨child, hchild, hbelow⟩ := below?_cons_iff.1 hplace
      have hmem := List.mem_of_getElem? hchild
      exact h.contains_of_child hmem (ih (h.of_child hmem) hbelow)

/-- No two children hold one offset. -/
theorem Spanned.index_unique (h : node.Spanned) {index later : Nat} {second : Node}
    (hchild : node.children[index]? = some child) (hsecond : node.children[later]? = some second)
    (hcontains : child.contains offset = true) (hcontains' : second.contains offset = true) :
    index = later := by
  have hapart : ∀ {first second : Nat} {left right : Node}, node.children[first]? = some left →
      node.children[second]? = some right → left.contains offset = true →
        right.contains offset = true → ¬first < second := by
    intro first second left right hleft hright hheld hheld' hlt
    obtain ⟨hfirst, rfl⟩ := List.getElem?_eq_some_iff.1 hleft
    obtain ⟨hlater, rfl⟩ := List.getElem?_eq_some_iff.1 hright
    have hends := List.pairwise_iff_getElem.1 (spanned_iff.1 h).2.pairwise
      first second hfirst hlater hlt
    rw [contains_iff] at hheld hheld'
    omega
  have hnotBefore := hapart hchild hsecond hcontains hcontains'
  have hnotBehind := hapart hsecond hchild hcontains' hcontains
  omega

/-- A place that holds an offset, with no place below it that does. -/
structure Deepest (offset : Int) (node : Node) (place : List Nat) (found : Node) : Prop where
  below : node.below? place = some found
  holds : found.contains offset = true
  last : ∀ child ∈ found.children, child.contains offset = false

/-- All places that hold an offset are on the way to the deepest one. -/
theorem Deepest.isPrefix (hdeepest : Deepest offset node place found) (h : node.Spanned)
    (hother : node.below? other = some element) (helement : element.contains offset = true) :
    other <+: place := by
  -- On both ways the next child holds the offset, and no two children do.
  induction other generalizing node place with
  | nil => exact List.nil_prefix
  | cons index other ih =>
      obtain ⟨child, hchild, hbelow⟩ := below?_cons_iff.1 hother
      have hspanned := h.of_child (List.mem_of_getElem? hchild)
      have hcontains := hspanned.contains_of_below hbelow helement
      cases place with
      | nil =>
          obtain rfl := Option.some.inj hdeepest.below
          rw [hdeepest.last child (List.mem_of_getElem? hchild)] at hcontains
          cases hcontains
      | cons first place =>
          obtain ⟨next, hnext, hplace⟩ := below?_cons_iff.1 hdeepest.below
          have hnode := h.of_child (List.mem_of_getElem? hnext)
          obtain rfl := h.index_unique hchild hnext hcontains
            (hnode.contains_of_below hplace hdeepest.holds)
          obtain rfl := Option.some.inj (hchild.symm.trans hnext)
          exact (List.prefix_cons_inj index).2
            (ih ⟨hplace, hdeepest.holds, hdeepest.last⟩ hspanned hbelow)

theorem Deepest.mem_above (hdeepest : Deepest offset node place found) (h : node.Spanned)
    (helement : element ∈ node.walk) (hholds : element.contains offset = true) :
    element = found ∨ element ∈ node.above place := by
  obtain ⟨other, hother⟩ := mem_walk_iff.1 helement
  have hway := hdeepest.isPrefix h hother hholds
  by_cases hplace : other = place
  · rw [hplace, hdeepest.below] at hother
    exact .inl (Option.some.inj hother).symm
  · exact .inr ((mem_above_iff hdeepest.below).2 ⟨other, hway, hplace, hother⟩)

/-! ## The way to an offset -/

mutual

/-- The path into a node that holds an offset ends at a deepest place. -/
theorem pathBelow_eq (offset : Int) : (node : Node) → (passed : List Node) →
    node.contains offset = true → ∃ place found, Deepest offset node place found ∧
      pathBelow offset passed node = found :: (node.above place ++ passed)
  | ⟨start, ownEnd?, form, children⟩, passed, hnode => by
      rw [pathBelow]
      rcases pathAmong_eq offset children (⟨start, ownEnd?, form, children⟩ :: passed) with
        ⟨hnone, hpath⟩ | ⟨index, child, place, found, hchild, hdeepest, hpath⟩
      · exact ⟨[], _, ⟨rfl, hnode, hnone⟩, hpath⟩
      · refine ⟨index :: place, found,
          ⟨below?_cons_iff.2 ⟨child, hchild, hdeepest.below⟩, hdeepest.holds, hdeepest.last⟩, ?_⟩
        rw [above_cons hchild, hpath, List.append_assoc]
        rfl

theorem pathAmong_eq (offset : Int) : (nodes : List Node) → (passed : List Node) →
    (∀ node ∈ nodes, node.contains offset = false) ∧ pathAmong offset passed nodes = passed ∨
      ∃ (index : Nat) (child : Node) (place : List Nat) (found : Node),
        nodes[index]? = some child ∧ Deepest offset child place found ∧
          pathAmong offset passed nodes = found :: (child.above place ++ passed)
  | [], passed => .inl ⟨List.forall_mem_nil _, rfl⟩
  | node :: nodes, passed => by
      rw [pathAmong]
      cases hnode : node.contains offset with
      | true =>
          obtain ⟨place, found, hdeepest, hpath⟩ := pathBelow_eq offset node passed hnode
          exact .inr ⟨0, node, place, found, rfl, hdeepest, hpath⟩
      | false =>
          rcases pathAmong_eq offset nodes passed with
            ⟨hnone, hpath⟩ | ⟨index, child, place, found, hchild, hdeepest, hpath⟩
          · exact .inl ⟨List.forall_mem_cons.2 ⟨hnode, hnone⟩, hpath⟩
          · exact .inr ⟨index + 1, child, place, found, hchild, hdeepest, hpath⟩

end

theorem elementAt_eq_none_iff : node.elementAt offset = none ↔ node.contains offset = false := by
  unfold elementAt pathAt
  cases hnode : node.contains offset with
  | false => simp
  | true =>
      obtain ⟨place, found, -, hpath⟩ := pathBelow_eq offset node [] hnode
      simp [hpath]

/-- The element at an offset stands at a deepest place, and its path goes up from there. -/
theorem exists_deepest (h : node.elementAt offset = some found) :
    ∃ place, Deepest offset node place found ∧
      node.pathAt offset = found :: node.above place := by
  unfold elementAt pathAt at h
  unfold pathAt
  cases hnode : node.contains offset with
  | false =>
      rw [hnode] at h
      cases h
  | true =>
      rw [hnode] at h
      obtain ⟨place, last, hdeepest, hpath⟩ := pathBelow_eq offset node [] hnode
      rw [if_pos rfl, hpath] at h
      obtain rfl := Option.some.inj h
      rw [List.append_nil] at hpath
      exact ⟨place, hdeepest, hpath⟩

end Node

end Manifest
