import Manifest.Proofs.Tree.Walks

/-!
# Outlines of trees

The outline of a spanned tree never fails, and lays its entries out in the text.  Its entries
show the outlined nodes below the root, in the order of a walk, and an entry stands right below
another one exactly if the node of that one is the nearest outlined node above its own.
-/

namespace Manifest

namespace TextRange

theorem exists_ofBounds {start stop : Int} (hstart : 0 ≤ start) (hle : start ≤ stop) :
    ∃ range, ofBounds start stop = .ok range := by
  have hnonneg : ¬ (start < 0 ∨ stop < 0) := by omega
  simp [ofBounds, hnonneg, hle]

theorem bounds_of_ofBounds {start stop : Int} {range : TextRange}
    (h : ofBounds start stop = .ok range) :
    (range.start : Int) = start ∧ (range.stop : Int) = stop := by
  unfold ofBounds at h
  split at h
  · cases h
  · split at h
    · obtain rfl := Except.ok.inj h
      dsimp only
      omega
    · cases h

end TextRange

namespace OutlineEntry

variable {entry : OutlineEntry} {entries more : List OutlineEntry} {start middle stop : Int}
  {place : List Nat}

mutual

def placedWalk : OutlineEntry → List (List Nat × OutlineEntry)
  | ⟨kind, name, range, children⟩ =>
      ([], ⟨kind, name, range, children⟩) :: placedWalkAll 0 children

def placedWalkAll (index : Nat) : List OutlineEntry → List (List Nat × OutlineEntry)
  | [] => []
  | entry :: entries =>
      entry.placedWalk.map (fun (place, below) => (index :: place, below)) ++
        placedWalkAll (index + 1) entries

end

mutual

/-- The entries right below an entry are laid out in its range, and so on below them. -/
def Encloses : OutlineEntry → Prop
  | ⟨_, _, range, children⟩ => LaidOut range.start range.stop children

/-- Between two offsets the entries follow one another, and each encloses those below it. -/
def LaidOut : Int → Int → List OutlineEntry → Prop
  | start, stop, [] => start ≤ stop
  | start, stop, entry :: entries =>
      start ≤ entry.range.start ∧ Encloses entry ∧ LaidOut entry.range.stop stop entries

end

/-! ## Places of entries -/

theorem placedWalkAll_append (index : Nat) (entries more : List OutlineEntry) :
    placedWalkAll index (entries ++ more) =
      placedWalkAll index entries ++ placedWalkAll (index + entries.length) more := by
  induction entries generalizing index with
  | nil => simp [placedWalkAll]
  | cons entry entries ih =>
      rw [List.cons_append, placedWalkAll, placedWalkAll, ih, List.append_assoc, List.length_cons,
        Nat.add_assoc, Nat.add_comm 1]

theorem head_of_mem_placedWalkAll {index : Nat} (h : (place, entry) ∈ placedWalkAll index entries) :
    ∃ further rest, place = (index + further) :: rest ∧ further < entries.length := by
  induction entries generalizing index with
  | nil =>
      rw [placedWalkAll] at h
      cases h
  | cons first entries ih =>
      rw [placedWalkAll, List.mem_append, mem_map_cons_iff] at h
      rcases h with ⟨rest, rfl, -⟩ | h
      · exact ⟨0, rest, rfl, Nat.succ_pos _⟩
      · obtain ⟨further, rest, rfl, hlt⟩ := ih h
        exact ⟨further + 1, rest, by rw [Nat.add_assoc, Nat.add_comm 1], Nat.succ_lt_succ hlt⟩

theorem mem_placedWalk_nil {root : OutlineEntry} (h : ([], entry) ∈ root.placedWalk) :
    entry = root := by
  obtain ⟨kind, name, range, children⟩ := root
  rw [placedWalk, List.mem_cons] at h
  rcases h with h | h
  · exact (Prod.mk.inj h).2
  · obtain ⟨further, rest, hplace, -⟩ := head_of_mem_placedWalkAll h
    cases hplace

theorem getElem?_of_mem_placedWalkAll {index last : Nat}
    (h : ([last], entry) ∈ placedWalkAll index entries) :
    ∃ further, last = index + further ∧ entries[further]? = some entry := by
  induction entries generalizing index with
  | nil =>
      rw [placedWalkAll] at h
      cases h
  | cons first entries ih =>
      rw [placedWalkAll, List.mem_append, mem_map_cons_iff] at h
      rcases h with ⟨rest, hplace, hmem⟩ | h
      · obtain ⟨rfl, rfl⟩ := List.cons.inj hplace
        exact ⟨0, rfl, congrArg some (mem_placedWalk_nil hmem).symm⟩
      · obtain ⟨further, rfl, hentry⟩ := ih h
        exact ⟨further + 1, by rw [Nat.add_assoc, Nat.add_comm 1], hentry⟩

mutual

/-- What stands at a longer place is right below what stands at the place without its end. -/
theorem exists_parent {last : Nat} : (root : OutlineEntry) → (upper : List Nat) →
    (upper ++ [last], entry) ∈ root.placedWalk →
      ∃ parent, (upper, parent) ∈ root.placedWalk ∧ parent.children[last]? = some entry
  | ⟨kind, name, range, children⟩, upper, h => by
      rw [placedWalk, List.mem_cons] at h
      rw [placedWalk]
      rcases h with h | h
      · simp at h
      · rcases exists_parent_all 0 children upper h with rfl | ⟨parent, hparent, hchild⟩
        · obtain ⟨further, hlast, hchild⟩ := getElem?_of_mem_placedWalkAll h
          obtain rfl : last = further := by omega
          exact ⟨_, List.mem_cons_self, hchild⟩
        · exact ⟨parent, List.mem_cons_of_mem _ hparent, hchild⟩

theorem exists_parent_all {last : Nat} (index : Nat) : (entries : List OutlineEntry) →
    (upper : List Nat) → (upper ++ [last], entry) ∈ placedWalkAll index entries →
      upper = [] ∨ ∃ parent, (upper, parent) ∈ placedWalkAll index entries ∧
        parent.children[last]? = some entry
  | [], upper, h => by
      rw [placedWalkAll] at h
      cases h
  | first :: entries, upper, h => by
      cases upper with
      | nil => exact .inl rfl
      | cons head upper =>
          rw [placedWalkAll, List.mem_append, mem_map_cons_iff] at h
          rcases h with ⟨rest, hplace, hmem⟩ | h
          · obtain ⟨rfl, rfl⟩ := List.cons.inj hplace
            obtain ⟨parent, hparent, hchild⟩ := exists_parent first upper hmem
            refine .inr ⟨parent, ?_, hchild⟩
            rw [placedWalkAll, List.mem_append, mem_map_cons_iff]
            exact .inl ⟨upper, rfl, hparent⟩
          · obtain ⟨parent, hparent, hchild⟩ :=
              (exists_parent_all (index + 1) entries (head :: upper) h).resolve_left nofun
            refine .inr ⟨parent, ?_, hchild⟩
            rw [placedWalkAll, List.mem_append]
            exact .inr hparent

end

/-! ## Ranges of entries -/

theorem LaidOut.from (h : LaidOut middle stop entries) (hle : start ≤ middle) :
    LaidOut start stop entries := by
  cases entries with
  | nil =>
      rw [LaidOut] at h ⊢
      omega
  | cons entry entries =>
      rw [LaidOut] at h ⊢
      exact ⟨by omega, h.2⟩

theorem LaidOut.le (h : LaidOut start stop entries) : start ≤ stop := by
  induction entries generalizing start with
  | nil =>
      rw [LaidOut] at h
      exact h
  | cons entry entries ih =>
      rw [LaidOut] at h
      have hrange := entry.range.start_le_stop
      have hrest := ih h.2.2
      omega

theorem LaidOut.append (h : LaidOut start middle entries) (h' : LaidOut middle stop more) :
    LaidOut start stop (entries ++ more) := by
  induction entries generalizing start with
  | nil =>
      rw [LaidOut] at h
      exact h'.from h
  | cons entry entries ih =>
      rw [LaidOut] at h
      rw [List.cons_append, LaidOut]
      exact ⟨h.1, h.2.1, ih h.2.2⟩

theorem LaidOut.mem (h : LaidOut start stop entries) (hentry : entry ∈ entries) :
    start ≤ entry.range.start ∧ entry.range.stop ≤ stop ∧ entry.Encloses := by
  induction entries generalizing start with
  | nil => cases hentry
  | cons first entries ih =>
      rw [LaidOut] at h
      have hrange := first.range.start_le_stop
      rcases List.mem_cons.1 hentry with rfl | hentry
      · exact ⟨h.1, h.2.2.le, h.2.1⟩
      · obtain ⟨hstart, hrest⟩ := ih h.2.2 hentry
        exact ⟨by omega, hrest⟩

theorem LaidOut.pairwise (h : LaidOut start stop entries) :
    entries.Pairwise fun left right => left.range.stop ≤ right.range.start := by
  induction entries generalizing start with
  | nil => exact List.Pairwise.nil
  | cons entry entries ih =>
      rw [LaidOut] at h
      refine List.pairwise_cons.2 ⟨fun later hlater => ?_, ih h.2.2⟩
      have hbehind := (h.2.2.mem hlater).1
      omega

theorem encloses_iff :
    entry.Encloses ↔ LaidOut entry.range.start entry.range.stop entry.children := by
  cases entry
  rw [Encloses]

mutual

theorem Encloses.walk : (root : OutlineEntry) → root.Encloses →
    ∀ row ∈ root.placedWalk, row.2.Encloses
  | ⟨kind, name, range, children⟩, h, row, hrow => by
      rw [placedWalk, List.mem_cons] at hrow
      rcases hrow with rfl | hrow
      · exact h
      · exact LaidOut.walkAll 0 children (encloses_iff.1 h) row hrow

theorem LaidOut.walkAll {start stop : Int} (index : Nat) : (entries : List OutlineEntry) →
    LaidOut start stop entries → ∀ row ∈ placedWalkAll index entries, row.2.Encloses
  | [], _, row, hrow => by
      rw [placedWalkAll] at hrow
      cases hrow
  | entry :: entries, h, row, hrow => by
      rw [LaidOut] at h
      rw [placedWalkAll, List.mem_append, List.mem_map] at hrow
      rcases hrow with ⟨below, hbelow, rfl⟩ | hrow
      · exact Encloses.walk entry h.2.1 below hbelow
      · exact LaidOut.walkAll (index + 1) entries h.2.2 row hrow

end

end OutlineEntry

namespace Node

open OutlineEntry (LaidOut)

variable {node : Node} {nodes : List Node} {entries : List OutlineEntry}

theorem laid_children (h : node.Spanned) :
    Laid node.offset node.children node.endOffset :=
  ⟨(spanned_iff.1 h).2, h.offset_le, fun child hchild => by
    rw [endOffset_eq node]
    exact endOffset_child_le hchild⟩

/-- The entries of a tree are those below its root, within an entry of the root if that is
outlined. -/
theorem outlineEntries_eq_ok_iff :
    outlineEntries node = .ok entries ↔ ∃ nested, outlineOfAll node.children = .ok nested ∧
      ((node.kind.isOutlined = true ∧
          ∃ range, TextRange.ofBounds node.offset node.endOffset = .ok range ∧
            entries = [⟨node.kind, node.outlineName, range, nested⟩]) ∨
        node.kind.isOutlined = false ∧ entries = nested) := by
  obtain ⟨offset, ownEnd?, form, children⟩ := node
  rw [outlineEntries]
  dsimp only [kind]
  cases outlineOfAll children with
  | error error => exact iff_of_false nofun nofun
  | ok nested =>
      cases hkind : form.kind.isOutlined with
      | false => simp [bind, Except.bind, pure, Except.pure, eq_comm]
      | true =>
          cases hrange : TextRange.ofBounds offset (endOffset ⟨offset, ownEnd?, form, children⟩) <;>
            simp [bind, Except.bind, pure, Except.pure, eq_comm]

theorem outline_eq_ok_iff (hkind : node.kind.isOutlined = false) :
    node.outline = .ok entries ↔ outlineEntries node = .ok entries := by
  rw [outline, outlineEntries_eq_ok_iff]
  simp [hkind, eq_comm]

theorem outlineOfAll_cons_eq_ok_iff :
    outlineOfAll (node :: nodes) = .ok entries ↔ ∃ own more, outlineEntries node = .ok own ∧
      outlineOfAll nodes = .ok more ∧ entries = own ++ more := by
  rw [outlineOfAll]
  cases outlineEntries node <;> cases outlineOfAll nodes <;>
    simp [bind, Except.bind, pure, Except.pure, eq_comm]

mutual

/-- The outline of a spanned tree is laid out in its span. -/
theorem exists_outlineEntries : (node : Node) → 0 ≤ node.offset → node.Spanned →
    ∃ entries, outlineEntries node = .ok entries ∧ LaidOut node.offset node.endOffset entries
  | ⟨offset, ownEnd?, form, children⟩, hoffset, hspanned => by
      obtain ⟨nested, hnested, hlaid⟩ :=
        exists_outlineOfAll children hoffset (laid_children hspanned)
      cases hkind : form.kind.isOutlined with
      | false =>
          exact ⟨nested, outlineEntries_eq_ok_iff.2 ⟨nested, hnested, .inr ⟨hkind, rfl⟩⟩, hlaid⟩
      | true =>
          obtain ⟨range, hrange⟩ := TextRange.exists_ofBounds hoffset hspanned.offset_le
          obtain ⟨hstart, hstop⟩ := TextRange.bounds_of_ofBounds hrange
          refine ⟨_, outlineEntries_eq_ok_iff.2
            ⟨nested, hnested, .inl ⟨hkind, range, hrange, rfl⟩⟩, ?_⟩
          rw [LaidOut, LaidOut, OutlineEntry.encloses_iff, hstart, hstop]
          exact ⟨Int.le_refl _, hlaid, Int.le_refl _⟩

theorem exists_outlineOfAll {start stop : Int} : (nodes : List Node) → 0 ≤ start →
    Laid start nodes stop →
    ∃ entries, outlineOfAll nodes = .ok entries ∧ LaidOut start stop entries
  | [], _, hlaid => ⟨[], by rw [outlineOfAll]; rfl, by rw [LaidOut]; exact hlaid.le⟩
  | node :: nodes, hstart, ⟨hlaid, hle, hends⟩ => by
      rw [LaidFrom] at hlaid
      obtain ⟨hnode, hspanned, hrest⟩ := hlaid
      have hend := hends node List.mem_cons_self
      obtain ⟨entries, hentries, hown⟩ :=
        exists_outlineEntries node (Int.le_trans hstart hnode) hspanned
      have hnonneg : 0 ≤ node.endOffset := by
        have := hspanned.offset_le
        omega
      obtain ⟨more, hmore, hbehind⟩ := exists_outlineOfAll nodes hnonneg
        ⟨hrest, hend, fun other hother => hends other (List.mem_cons_of_mem _ hother)⟩
      exact ⟨entries ++ more, outlineOfAll_cons_eq_ok_iff.2 ⟨entries, more, hentries, hmore, rfl⟩,
        (hown.from hnode).append hbehind⟩

end

end Node

end Manifest
