import Mathlib.Data.List.Nodup
import Manifest.Proofs.Tree.Outlines

/-!
# Entries and the nodes they show

The entries of an outline, in the order of their places, show the outlined nodes of a tree in the
order of a walk.  One entry is above another exactly where the one node is above the other, so the
entry right above shows the nearest outlined node.
-/

namespace Manifest

/-- An entry of an outline at its place, with the node of a tree that it shows. -/
structure Shown where
  place : List Nat
  entry : OutlineEntry
  site : List Nat
  node : Node

namespace Shown

variable {shown upper lower : Shown} {rows more : List Shown} {index : Nat} {root node : Node}

def placed (shown : Shown) : List Nat × OutlineEntry :=
  (shown.place, shown.entry)

def sited (shown : Shown) : List Nat × Node :=
  (shown.site, shown.node)

structure Agrees (shown : Shown) : Prop where
  kind : shown.entry.kind = shown.node.kind
  name : shown.entry.name = shown.node.outlineName
  start : (shown.entry.range.start : Int) = shown.node.offset
  stop : (shown.entry.range.stop : Int) = shown.node.endOffset

def Follows (upper lower : Shown) : Prop :=
  upper.place <+: lower.place ↔ upper.site <+: lower.site

/-- The entry is right below the other one. -/
def IsUnder (lower upper : Shown) : Prop :=
  ∃ index, lower.place = upper.place ++ [index] ∧
    upper.entry.children[index]? = some lower.entry

/-- The node of `upper` is the nearest outlined one above the node of `lower`. -/
structure IsNearest (root : Node) (upper lower : Shown) : Prop where
  above : upper.site <+: lower.site
  ne : upper.site ≠ lower.site
  nearest : ∀ site node, root.below? site = some node → node.kind.isOutlined = true →
    site <+: lower.site → site ≠ lower.site → site <+: upper.site

def under (index : Nat) (shown : Shown) : Shown :=
  { shown with place := index :: shown.place }

def within (index : Nat) (shown : Shown) : Shown :=
  { shown with site := index :: shown.site }

end Shown

/-- The rows show the outlined ones among some nodes by entries. -/
structure Mirrors (rows : List Shown) (sites : List (List Nat × Node))
    (places : List (List Nat × OutlineEntry)) : Prop where
  sited : rows.map Shown.sited = sites.filter fun row => row.2.kind.isOutlined
  placed : rows.map Shown.placed = places
  agrees : ∀ shown ∈ rows, shown.Agrees
  follows : ∀ upper ∈ rows, ∀ lower ∈ rows, upper.Follows lower

namespace Mirrors

variable {rows more : List Shown} {sites sites' : List (List Nat × Node)}
  {places places' : List (List Nat × OutlineEntry)} {shown upper lower : Shown} {node root : Node}

theorem mem_sites (h : Mirrors rows sites places) (hshown : shown ∈ rows) :
    (shown.site, shown.node) ∈ sites ∧ shown.node.kind.isOutlined = true := by
  have hmem := List.mem_map_of_mem (f := Shown.sited) hshown
  rw [h.sited, List.mem_filter] at hmem
  exact hmem

theorem mem_places (h : Mirrors rows sites places) (hshown : shown ∈ rows) :
    (shown.place, shown.entry) ∈ places :=
  h.placed ▸ List.mem_map_of_mem (f := Shown.placed) hshown

theorem nil : Mirrors [] [] [] :=
  ⟨rfl, rfl, List.forall_mem_nil _, List.forall_mem_nil _⟩

theorem append (h : Mirrors rows sites places) (h' : Mirrors more sites' places')
    (hsites : ∀ left ∈ sites, ∀ right ∈ sites', ¬ left.1 <+: right.1 ∧ ¬ right.1 <+: left.1)
    (hplaces : ∀ left ∈ places, ∀ right ∈ places', ¬ left.1 <+: right.1 ∧ ¬ right.1 <+: left.1) :
    Mirrors (rows ++ more) (sites ++ sites') (places ++ places') where
  sited := by rw [List.map_append, List.filter_append, h.sited, h'.sited]
  placed := by rw [List.map_append, h.placed, h'.placed]
  agrees := by
    intro shown hshown
    rcases List.mem_append.1 hshown with hshown | hshown
    · exact h.agrees shown hshown
    · exact h'.agrees shown hshown
  follows := by
    intro upper hupper lower hlower
    rcases List.mem_append.1 hupper with hupper | hupper <;>
      rcases List.mem_append.1 hlower with hlower | hlower
    · exact h.follows upper hupper lower hlower
    · exact iff_of_false (hplaces _ (h.mem_places hupper) _ (h'.mem_places hlower)).1
        (hsites _ (h.mem_sites hupper).1 _ (h'.mem_sites hlower).1).1
    · exact iff_of_false (hplaces _ (h.mem_places hlower) _ (h'.mem_places hupper)).2
        (hsites _ (h.mem_sites hlower).1 _ (h'.mem_sites hupper).1).2
    · exact h'.follows upper hupper lower hlower

/-- The nodes may stand one level further down, since that moves none of them past another. -/
theorem within (h : Mirrors rows sites places) (index : Nat) :
    Mirrors (rows.map (Shown.within index))
      (sites.map fun (site, node) => (index :: site, node)) places where
  sited := by
    rw [List.filter_map, List.map_map]
    refine Eq.trans ?_ (congrArg (List.map _) h.sited)
    rw [List.map_map]
    rfl
  placed := by
    rw [List.map_map, ← h.placed]
    rfl
  agrees := by
    intro shown hshown
    obtain ⟨row, hrow, rfl⟩ := List.mem_map.1 hshown
    obtain ⟨hkind, hname, hstart, hstop⟩ := h.agrees row hrow
    exact ⟨hkind, hname, hstart, hstop⟩
  follows := by
    intro upper hupper lower hlower
    obtain ⟨first, hfirst, rfl⟩ := List.mem_map.1 hupper
    obtain ⟨second, hsecond, rfl⟩ := List.mem_map.1 hlower
    show first.place <+: second.place ↔ index :: first.site <+: index :: second.site
    rw [List.prefix_cons_inj]
    exact h.follows first hfirst second hsecond

/-- An outlined node has its own entry above those of the nodes below it. -/
theorem outlined {range : TextRange} {nested : List OutlineEntry} (index : Nat)
    (h : Mirrors rows (Node.placedWalkAll 0 node.children) (OutlineEntry.placedWalkAll 0 nested))
    (hkind : node.kind.isOutlined = true)
    (hrange : TextRange.ofBounds node.offset node.endOffset = .ok range) :
    Mirrors (⟨[index], ⟨node.kind, node.outlineName, range, nested⟩, [], node⟩ ::
        rows.map (Shown.under index)) node.placedWalk
      (OutlineEntry.placedWalkAll index [⟨node.kind, node.outlineName, range, nested⟩]) where
  sited := by
    obtain ⟨offset, ownEnd?, form, children⟩ := node
    rw [Node.placedWalk, List.filter_cons, if_pos hkind, List.map_cons, List.map_map, ← h.sited]
    rfl
  placed := by
    rw [OutlineEntry.placedWalkAll, OutlineEntry.placedWalkAll, OutlineEntry.placedWalk,
      List.append_nil, List.map_cons, List.map_cons, List.map_map, ← h.placed, List.map_map]
    rfl
  agrees := by
    intro shown hshown
    rcases List.mem_cons.1 hshown with rfl | hshown
    · obtain ⟨hstart, hstop⟩ := TextRange.bounds_of_ofBounds hrange
      exact ⟨rfl, rfl, hstart, hstop⟩
    · obtain ⟨row, hrow, rfl⟩ := List.mem_map.1 hshown
      obtain ⟨hkind, hname, hstart, hstop⟩ := h.agrees row hrow
      exact ⟨hkind, hname, hstart, hstop⟩
  follows := by
    -- Neither the entry nor the node stands below any of the others.
    have hbelow : ∀ row ∈ rows, row.place ≠ [] ∧ row.site ≠ [] := by
      intro row hrow
      obtain ⟨further, rest, hplace, -⟩ :=
        OutlineEntry.head_of_mem_placedWalkAll (h.mem_places hrow)
      obtain ⟨further', child, rest', hsite, -⟩ :=
        (Node.mem_placedWalkAll 0 node.children row.site).1 (h.mem_sites hrow).1
      rw [hplace, hsite]
      exact ⟨nofun, nofun⟩
    intro upper hupper lower hlower
    rcases List.mem_cons.1 hupper with rfl | hupper <;>
      rcases List.mem_cons.1 hlower with rfl | hlower
    · exact iff_of_true (List.prefix_refl _) (List.prefix_refl _)
    · obtain ⟨row, hrow, rfl⟩ := List.mem_map.1 hlower
      exact iff_of_true ⟨row.place, rfl⟩ List.nil_prefix
    · obtain ⟨row, hrow, rfl⟩ := List.mem_map.1 hupper
      refine iff_of_false ?_ fun hsite => (hbelow row hrow).2 (List.prefix_nil.1 hsite)
      intro hplace
      exact (hbelow row hrow).1 (List.prefix_nil.1 ((List.prefix_cons_inj index).1 hplace))
    · obtain ⟨first, hfirst, rfl⟩ := List.mem_map.1 hupper
      obtain ⟨second, hsecond, rfl⟩ := List.mem_map.1 hlower
      show index :: first.place <+: index :: second.place ↔ first.site <+: second.site
      rw [List.prefix_cons_inj]
      exact h.follows first hfirst second hsecond

end Mirrors

namespace Node

theorem not_prefix_of_head {left right : Nat} {place other : List Nat} (h : left ≠ right) :
    ¬ left :: place <+: right :: other ∧ ¬ right :: other <+: left :: place := by
  rw [List.cons_prefix_cons, List.cons_prefix_cons]
  exact ⟨fun hprefix => h hprefix.1, fun hprefix => h hprefix.1.symm⟩

mutual

/-- The outline of a tree shows its outlined nodes. -/
theorem exists_mirrors : (node : Node) → (entries : List OutlineEntry) →
    outlineEntries node = .ok entries → (index : Nat) →
      ∃ rows, Mirrors rows node.placedWalk (OutlineEntry.placedWalkAll index entries)
  | ⟨offset, ownEnd?, form, children⟩, entries, h, index => by
      obtain ⟨nested, hnested, hentries⟩ := outlineEntries_eq_ok_iff.1 h
      rcases hentries with ⟨hkind, range, hrange, rfl⟩ | ⟨hkind, rfl⟩
      · obtain ⟨rows, hrows⟩ := exists_mirrorsAll children nested hnested 0 0
        exact ⟨_, hrows.outlined index hkind hrange⟩
      · obtain ⟨rows, hrows⟩ := exists_mirrorsAll children entries hnested 0 index
        refine ⟨rows, ?_, hrows.placed, hrows.agrees, hrows.follows⟩
        rw [hrows.sited, placedWalk, List.filter_cons_of_neg (by simpa using hkind)]

theorem exists_mirrorsAll : (nodes : List Node) → (entries : List OutlineEntry) →
    outlineOfAll nodes = .ok entries → (site index : Nat) →
      ∃ rows, Mirrors rows (placedWalkAll site nodes) (OutlineEntry.placedWalkAll index entries)
  | [], entries, h, site, index => by
      rw [outlineOfAll] at h
      obtain rfl := Except.ok.inj h
      exact ⟨[], .nil⟩
  | node :: nodes, entries, h, site, index => by
      obtain ⟨own, more, hown, hmore, rfl⟩ := outlineOfAll_cons_eq_ok_iff.1 h
      obtain ⟨rows, hrows⟩ := exists_mirrors node own hown index
      obtain ⟨behind, hbehind⟩ :=
        exists_mirrorsAll nodes more hmore (site + 1) (index + own.length)
      rw [placedWalkAll, OutlineEntry.placedWalkAll_append]
      refine ⟨_, (hrows.within site).append hbehind ?_ ?_⟩
      · rintro ⟨left, node⟩ hleft ⟨right, other⟩ hright
        obtain ⟨rest, rfl, -⟩ := mem_map_cons_iff.1 hleft
        obtain ⟨further, child, rest', rfl, -, -⟩ :=
          (mem_placedWalkAll (site + 1) nodes right).1 hright
        exact not_prefix_of_head (by omega)
      · rintro ⟨left, entry⟩ hleft ⟨right, other⟩ hright
        obtain ⟨further, rest, rfl, hlt⟩ := OutlineEntry.head_of_mem_placedWalkAll hleft
        obtain ⟨further', rest', rfl, -⟩ := OutlineEntry.head_of_mem_placedWalkAll hright
        exact not_prefix_of_head (by omega)

end

end Node

namespace Mirrors

variable {rows : List Shown} {root : Node} {entries : List OutlineEntry} {upper lower : Shown}
  {sites : List (List Nat × Node)} {places : List (List Nat × OutlineEntry)}

theorem exists_shown {site : List Nat} {node : Node} (h : Mirrors rows sites places)
    (hsites : root.InOrder sites) (hnode : root.below? site = some node)
    (hkind : node.kind.isOutlined = true) :
    ∃ shown ∈ rows, shown.site = site ∧ shown.node = node := by
  have hmem : (site, node) ∈ rows.map Shown.sited := by
    rw [h.sited, List.mem_filter]
    exact ⟨(hsites.complete site node).2 hnode, hkind⟩
  obtain ⟨shown, hshown, heq⟩ := List.mem_map.1 hmem
  exact ⟨shown, hshown, Prod.mk.inj heq⟩

theorem eq_of_site (h : Mirrors rows sites places) (hsites : root.InOrder sites)
    (hupper : upper ∈ rows) (hlower : lower ∈ rows) (hsite : upper.site = lower.site) :
    upper = lower := by
  have hrows : rows.map Shown.site = (rows.map Shown.sited).map Prod.fst := by
    rw [List.map_map]
    rfl
  have hnodup : (rows.map Shown.site).Nodup := by
    rw [hrows, h.sited]
    refine (hsites.ascending.sublist (List.filter_sublist.map Prod.fst)).imp
      fun {left right} hlt heq => ?_
    subst heq
    exact List.lt_irrefl left hlt
  exact List.inj_on_of_nodup_map hnodup hupper hlower hsite

/-- An entry stands right below another one exactly if that shows the nearest outlined node above
its own node. -/
theorem isUnder_iff (h : Mirrors rows sites (OutlineEntry.placedWalkAll 0 entries))
    (hsites : root.InOrder sites) (hupper : upper ∈ rows) (hlower : lower ∈ rows) :
    lower.IsUnder upper ↔ upper.IsNearest root lower := by
  constructor
  · rintro ⟨index, hplace, -⟩
    have habove := (h.follows upper hupper lower hlower).1 ⟨[index], hplace.symm⟩
    refine ⟨habove, fun hsite => ?_, fun site node hnode hkind hbegins hne => ?_⟩
    · obtain rfl := h.eq_of_site hsites hupper hlower hsite
      simp at hplace
    · obtain ⟨shown, hshown, rfl, -⟩ := h.exists_shown hsites hnode hkind
      have hprefix := (h.follows shown hshown lower hlower).2 hbegins
      rw [hplace, List.prefix_concat_iff] at hprefix
      rcases hprefix with hsame | hprefix
      · -- A row at the place of the lower one would have its site too.
        rw [← hplace] at hsame
        have hback := (h.follows lower hlower shown hshown).1 (hsame ▸ List.prefix_refl _)
        exact (hne (hbegins.eq_of_length_le hback.length_le)).elim
      · exact (h.follows shown hshown upper hupper).1 hprefix
  · rintro ⟨habove, hne, hnearest⟩
    obtain ⟨rest, hrest⟩ := (h.follows upper hupper lower hlower).2 habove
    rcases List.eq_nil_or_concat' rest with rfl | ⟨between, last, rfl⟩
    · rw [List.append_nil] at hrest
      have hback := (h.follows lower hlower upper hupper).1 (hrest ▸ List.prefix_refl _)
      exact (hne (habove.eq_of_length_le hback.length_le)).elim
    · -- What is right above the lower entry is not below the upper one, so it is that one.
      have hmem := h.mem_places hlower
      rw [← hrest, ← List.append_assoc] at hmem
      obtain ⟨further, place, hplace, -⟩ :=
        OutlineEntry.head_of_mem_placedWalkAll (h.mem_places hupper)
      have hsome : upper.place ++ between ≠ [] := by simp [hplace]
      obtain ⟨parent, hparent, hchild⟩ :=
        (OutlineEntry.exists_parent_all 0 entries _ hmem).resolve_left hsome
      rw [← h.placed] at hparent
      obtain ⟨shown, hshown, heq⟩ := List.mem_map.1 hparent
      obtain ⟨hshownPlace, hentry⟩ := Prod.mk.inj heq
      have hlonger : shown.place.length < lower.place.length := by
        rw [hshownPlace, ← hrest]
        simp
      have hbelow := (h.follows shown hshown lower hlower).1
        ⟨[last], by rw [hshownPlace, List.append_assoc, hrest]⟩
      have hother : shown.site ≠ lower.site := by
        intro hsite
        rw [h.eq_of_site hsites hshown hlower hsite] at hlonger
        exact Nat.lt_irrefl _ hlonger
      obtain ⟨hnode, hkind⟩ := h.mem_sites hshown
      have hup := hnearest shown.site shown.node ((hsites.complete _ _).1 hnode) hkind
        hbelow hother
      have hdown := (h.follows upper hupper shown hshown).1 ⟨between, hshownPlace.symm⟩
      obtain rfl := h.eq_of_site hsites hshown hupper (hup.eq_of_length_le hdown.length_le)
      refine ⟨last, ?_, hentry ▸ hchild⟩
      rw [hshownPlace, List.append_assoc, hrest]

end Mirrors

end Manifest
