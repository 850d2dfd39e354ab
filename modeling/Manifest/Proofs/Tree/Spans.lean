import Manifest.Tree.View

/-!
# Spans of a tree

A node is spanned when it does not end before it begins, and when its children are laid
out in it one after the other.  Rows of nodes that are laid out in neighbouring
stretches of text are laid out in both together.
-/

namespace Manifest

namespace Node

mutual

def Spanned : Node → Prop
  | ⟨offset, ownEnd?, form, children⟩ =>
      offset ≤ ownEnd?.getD (offset + form.ownLength) ∧ LaidFrom offset children

/-- Spanned nodes, the first not before an offset, and each other not before the one on its
left ends. -/
def LaidFrom (start : Int) : List Node → Prop
  | [] => True
  | node :: nodes => start ≤ node.offset ∧ Spanned node ∧ LaidFrom node.endOffset nodes

end

/-- Nodes that are laid out between two offsets. -/
def Laid (start : Int) (nodes : List Node) (stop : Int) : Prop :=
  LaidFrom start nodes ∧ start ≤ stop ∧ ∀ node ∈ nodes, node.endOffset ≤ stop

def Fits (start : Int) (node : Node) (stop : Int) : Prop :=
  start ≤ node.offset ∧ node.Spanned ∧ node.endOffset ≤ stop

variable {start stop middle least : Int} {node : Node} {nodes left right : List Node}

/-! ## Where nodes end -/

theorem endOffsetOf_le_iff :
    endOffsetOf least nodes ≤ stop ↔ least ≤ stop ∧ ∀ node ∈ nodes, node.endOffset ≤ stop := by
  induction nodes generalizing least with
  | nil => simp [endOffsetOf]
  | cons node nodes ih =>
      rw [endOffsetOf, ih]
      simp only [List.mem_cons, forall_eq_or_imp]
      constructor
      · rintro ⟨hmax, hrest⟩
        exact ⟨by omega, by omega, hrest⟩
      · rintro ⟨hleast, hnode, hrest⟩
        exact ⟨by omega, hrest⟩

theorem endOffset_eq (node : Node) :
    node.endOffset = endOffsetOf node.leastEnd node.children := by
  cases node
  rw [endOffset]
  rfl

theorem leastEnd_le_endOffset (node : Node) : node.leastEnd ≤ node.endOffset := by
  rw [endOffset_eq]
  exact (endOffsetOf_le_iff.1 (Int.le_refl _)).1

theorem endOffset_eq_of_ownEnd (h : node.ownEnd? = some stop) (hle : node.endOffset ≤ stop) :
    node.endOffset = stop := by
  have hleast := node.leastEnd_le_endOffset
  unfold leastEnd at hleast
  rw [h] at hleast
  exact Int.le_antisymm hle hleast

theorem endOffset_child_le (h : node ∈ nodes) : node.endOffset ≤ endOffsetOf least nodes :=
  (endOffsetOf_le_iff.1 (Int.le_refl _)).2 node h

mutual

theorem endOffset_walk_le : (node : Node) → ∀ below ∈ node.walk, below.endOffset ≤ node.endOffset
  | ⟨offset, ownEnd?, form, children⟩, below, hbelow => by
      rw [Node.walk, List.mem_cons] at hbelow
      rcases hbelow with rfl | hbelow
      · exact Int.le_refl _
      · rw [endOffset_eq ⟨offset, ownEnd?, form, children⟩]
        exact endOffset_walkAll_le _ children below hbelow

theorem endOffset_walkAll_le (least : Int) : (nodes : List Node) →
    ∀ below ∈ Node.walkAll nodes, below.endOffset ≤ endOffsetOf least nodes
  | [], below, hbelow => by
      rw [Node.walkAll] at hbelow
      cases hbelow
  | node :: nodes, below, hbelow => by
      rw [Node.walkAll, List.mem_append] at hbelow
      rcases hbelow with hbelow | hbelow
      · have hnode : node.endOffset ≤ endOffsetOf least (node :: nodes) :=
          endOffset_child_le List.mem_cons_self
        exact Int.le_trans (endOffset_walk_le node below hbelow) hnode
      · exact endOffset_walkAll_le (max least node.endOffset) nodes below hbelow

end

/-! ## Spanned nodes -/

theorem spanned_iff :
    node.Spanned ↔ node.offset ≤ node.leastEnd ∧ LaidFrom node.offset node.children := by
  cases node
  rw [Spanned]
  rfl

theorem Spanned.offset_le (h : node.Spanned) : node.offset ≤ node.endOffset :=
  Int.le_trans (spanned_iff.1 h).1 node.leastEnd_le_endOffset

theorem LaidFrom.mem (h : LaidFrom start nodes) (hnode : node ∈ nodes) :
    start ≤ node.offset ∧ node.Spanned := by
  induction nodes generalizing start with
  | nil => cases hnode
  | cons first nodes ih =>
      rw [LaidFrom] at h
      rcases h with ⟨hstart, hfirst, hrest⟩
      rcases List.mem_cons.1 hnode with rfl | hnode
      · exact ⟨hstart, hfirst⟩
      · have hle := hfirst.offset_le
        have hlater := ih hrest hnode
        exact ⟨by omega, hlater.2⟩

theorem LaidFrom.pairwise (h : LaidFrom start nodes) :
    nodes.Pairwise fun left right =>
      left.offset ≤ right.offset ∧ left.endOffset ≤ right.offset := by
  induction nodes generalizing start with
  | nil => exact List.Pairwise.nil
  | cons first nodes ih =>
      rw [LaidFrom] at h
      rcases h with ⟨-, hfirst, hrest⟩
      have hle := hfirst.offset_le
      refine List.pairwise_cons.2 ⟨fun later hlater => ?_, ih hrest⟩
      have hbehind := (hrest.mem hlater).1
      exact ⟨by omega, hbehind⟩

mutual

theorem Spanned.walk : (node : Node) → node.Spanned → ∀ below ∈ node.walk, below.Spanned
  | ⟨offset, ownEnd?, form, children⟩, h, below, hbelow => by
      rw [Node.walk, List.mem_cons] at hbelow
      rcases hbelow with rfl | hbelow
      · exact h
      · exact LaidFrom.walkAll children (spanned_iff.1 h).2 below hbelow

theorem LaidFrom.walkAll {start : Int} : (nodes : List Node) → LaidFrom start nodes →
    ∀ below ∈ Node.walkAll nodes, below.Spanned
  | [], _, below, hbelow => by
      rw [Node.walkAll] at hbelow
      cases hbelow
  | node :: nodes, h, below, hbelow => by
      rw [LaidFrom] at h
      rw [Node.walkAll, List.mem_append] at hbelow
      rcases hbelow with hbelow | hbelow
      · exact Spanned.walk node h.2.1 below hbelow
      · exact LaidFrom.walkAll nodes h.2.2 below hbelow

end

/-! ## Rows of nodes -/

theorem LaidFrom.weaken (h : LaidFrom middle nodes) (hle : start ≤ middle) :
    LaidFrom start nodes := by
  cases nodes with
  | nil => trivial
  | cons node nodes =>
      rw [LaidFrom] at h ⊢
      exact ⟨by omega, h.2⟩

theorem laid_nil (h : start ≤ stop) : Laid start [] stop :=
  ⟨trivial, h, by simp⟩

theorem Laid.le (h : Laid start nodes stop) : start ≤ stop :=
  h.2.1

theorem Laid.from (h : Laid middle nodes stop) (hle : start ≤ middle) : Laid start nodes stop :=
  ⟨h.1.weaken hle, Int.le_trans hle h.2.1, h.2.2⟩

theorem Laid.upTo (h : Laid start nodes middle) (hle : middle ≤ stop) : Laid start nodes stop :=
  ⟨h.1, Int.le_trans h.2.1 hle, fun node hnode => Int.le_trans (h.2.2 node hnode) hle⟩

theorem Laid.append (h : Laid start left middle) (h' : Laid middle right stop) :
    Laid start (left ++ right) stop := by
  induction left generalizing start with
  | nil => exact h'.from h.le
  | cons node left ih =>
      rcases h with ⟨hlaid, hle, hends⟩
      rw [LaidFrom] at hlaid
      rcases hlaid with ⟨hstart, hnode, hrest⟩
      have hend := hends node (by simp)
      have htail := ih ⟨hrest, hend, fun other hother => hends other (by simp [hother])⟩
      have hmiddle := h'.le
      refine ⟨?_, by omega, ?_⟩
      · rw [List.cons_append, LaidFrom]
        exact ⟨hstart, hnode, htail.1⟩
      · intro other hother
        rcases List.mem_cons.1 hother with rfl | hother
        · omega
        · exact htail.2.2 other hother

theorem Fits.laid (h : Fits start node stop) : Laid start [node] stop := by
  rcases h with ⟨hstart, hnode, hend⟩
  have hle := hnode.offset_le
  refine ⟨?_, by omega, ?_⟩
  · rw [LaidFrom, LaidFrom]
    exact ⟨hstart, hnode, trivial⟩
  · intro other hother
    rw [List.mem_singleton.1 hother]
    exact hend

theorem Laid.concat (h : Laid start nodes middle) (h' : Fits middle node stop) :
    Laid start (nodes ++ [node]) stop :=
  h.append h'.laid

theorem Fits.from (h : Fits middle node stop) (hle : start ≤ middle) : Fits start node stop :=
  ⟨Int.le_trans hle h.1, h.2⟩

theorem Fits.upTo (h : Fits start node middle) (hle : middle ≤ stop) : Fits start node stop :=
  ⟨h.1, h.2.1, Int.le_trans h.2.2 hle⟩

/-- A node fits where it begins, its own text ends and its children are laid out. -/
theorem fits_of_laid (hstart : start ≤ node.offset) (hown : node.offset ≤ node.leastEnd)
    (hend : node.leastEnd ≤ stop) (hchildren : Laid node.offset node.children stop) :
    Fits start node stop := by
  refine ⟨hstart, spanned_iff.2 ⟨hown, hchildren.1⟩, ?_⟩
  rw [endOffset_eq, endOffsetOf_le_iff]
  exact ⟨hend, hchildren.2.2⟩

variable {offset : Int} {form : Form Link} {children : List Node}

theorem fits_unended (hstart : start ≤ offset) (hown : 0 ≤ form.ownLength)
    (hend : offset + form.ownLength ≤ stop) (hchildren : Laid offset children stop) :
    Fits start ⟨offset, none, form, children⟩ stop := by
  have hleast : (Node.leastEnd ⟨offset, none, form, children⟩) = offset + form.ownLength := rfl
  refine fits_of_laid hstart ?_ (by rw [hleast]; exact hend) hchildren
  rw [hleast]
  show offset ≤ _
  omega

theorem fits_enclosing (hown : form.ownLength = 0) (hchildren : Laid offset children stop) :
    Fits offset ⟨offset, none, form, children⟩ stop := by
  have hle := hchildren.le
  exact fits_unended (Int.le_refl _) (by omega) (by omega) hchildren

theorem fits_ended {ownEnd : Int} (hstart : start ≤ offset) (hown : offset ≤ ownEnd)
    (hend : ownEnd ≤ stop) (hchildren : Laid offset children stop) :
    Fits start ⟨offset, some ownEnd, form, children⟩ stop :=
  fits_of_laid hstart hown hend hchildren

/-! ## Single nodes -/

theorem fits_leaf (hown : 0 ≤ form.ownLength) (hend : offset + form.ownLength ≤ stop) :
    Fits offset (leaf offset form) stop :=
  fits_unended (Int.le_refl _) hown hend (laid_nil (by omega))

theorem fits_classRef {nameOffset : Int} {name : List Char} (hname : offset ≤ nameOffset)
    (hend : nameOffset + name.length ≤ stop) :
    Fits offset (classRef offset nameOffset name) stop := by
  have hidentifier : Fits nameOffset (leaf nameOffset (.identifier name)) stop :=
    fits_leaf (Int.natCast_nonneg _) hend
  exact fits_enclosing rfl (hidentifier.from hname).laid

end Node

end Manifest
