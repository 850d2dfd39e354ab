import Mathlib.Data.List.Infix
import Manifest.Proofs.Parsing.TopLevel
import Manifest.Proofs.Tree.Mirrors

/-!
# Views of the tree of a text

Walk, listing and outline of the tree of a text agree on its elements, on their order and on what
is below what; the outline never fails, and its ranges nest and stay apart.
-/

namespace Manifest

namespace Parsed

/-- A walk comes to each element of a tree once and in order, also when it keeps a stack, and the
listing has an entry for each, indented by its depth.  The outline shows just the outlined ones in
that order, each right below the nearest outlined one above it; what is below an entry lies in its
range, and neighbours do not overlap. -/
theorem views_ofText (options : ParseOptions) (interruption : Interruption)
    (source : List Char) :
    ∃ rows entries shown,
      (ofText options interruption source).root.InOrder rows ∧
      (∀ fuel, rows.length < fuel →
        iterate Node.Walking.step fuel (.start (ofText options interruption source).root) =
          ⟨[], rows.map Prod.snd⟩) ∧
      (∀ indent, (ofText options interruption source).root.format indent =
        "\n".intercalate (rows.map fun (place, element) =>
          String.join (List.replicate place.length indent) ++ element.line)) ∧
      (ofText options interruption source).root.outline = .ok entries ∧
      Mirrors shown rows (OutlineEntry.placedWalkAll 0 entries) ∧
      (∀ upper ∈ shown, ∀ lower ∈ shown, lower.IsUnder upper ↔
        upper.IsNearest (ofText options interruption source).root lower) ∧
      (∀ row ∈ shown,
        (∀ nested ∈ row.entry.children, row.entry.range.start ≤ nested.range.start ∧
          nested.range.stop ≤ row.entry.range.stop) ∧
        row.entry.children.Pairwise fun left right => left.range.stop ≤ right.range.start) ∧
      entries.Pairwise fun left right => left.range.stop ≤ right.range.start := by
  have hkind : (ofText options interruption source).root.kind.isOutlined = false := rfl
  have hfits := fits_root options interruption source
  generalize (ofText options interruption source).root = root at hkind hfits ⊢
  have hrows := root.inOrder_placedWalk
  have hlength : root.placedWalk.length = root.walk.length := by
    rw [← hrows.walked, List.length_map]
  obtain ⟨entries, hentries, hlaid⟩ := Node.exists_outlineEntries root hfits.1 hfits.2.1
  obtain ⟨shown, hshown⟩ := Node.exists_mirrors root entries hentries 0
  refine ⟨root.placedWalk, entries, shown, hrows, fun fuel hfuel => ?_, fun indent => ?_,
    (Node.outline_eq_ok_iff hkind).2 hentries, hshown,
    fun upper hupper lower hlower => hshown.isUnder_iff hrows hupper hlower, fun row hrow => ?_,
    hlaid.pairwise⟩
  · rw [hrows.walked]
    exact Node.Walking.iterate_start root (by omega)
  · rw [Node.format, Node.linesAt_eq]
    simp
  · have hencloses : row.entry.Encloses :=
      OutlineEntry.LaidOut.walkAll 0 entries hlaid _ (hshown.mem_places hrow)
    have hbelow := OutlineEntry.encloses_iff.1 hencloses
    refine ⟨fun nested hnested => ?_, hbelow.pairwise⟩
    have hnested := hbelow.mem hnested
    omega

def guardedResource : List Char :=
  "class a \x7b if $x \x7b file \x7b 'b': \x7d \x7d \x7d node c \x7b \x7d".toList

/-- The resource is shown right below the class, over three elements that are not outlined. -/
theorem views_ofText_guardedResource :
    ∃ entries, (ofText .standard .never guardedResource).root.outline = .ok entries ∧
      ∃ upper lower : Shown, lower.IsUnder upper ∧
        upper.site = [0] ∧ upper.entry.name = ['a'] ∧
        lower.site = [0, 1, 0, 1, 0] ∧ lower.entry.name = "file[b]".toList ∧
        upper.entry.range.start ≤ lower.entry.range.start ∧
        lower.entry.range.stop ≤ upper.entry.range.stop ∧
        iterate Node.Walking.step 13 (.start (ofText .standard .never guardedResource).root) =
          ⟨[], (ofText .standard .never guardedResource).root.walk⟩ := by
  have hnodes : ((ofText .standard .never guardedResource).root.below? [0]).map
        (fun node => (node.kind.isOutlined, node.outlineName)) = some (true, ['a']) ∧
      ((ofText .standard .never guardedResource).root.below? [0, 1, 0, 1, 0]).map
        (fun node => (node.kind.isOutlined, node.outlineName)) = some (true, "file[b]".toList) := by
    decide +kernel
  -- Of the places above the resource only that of the class is outlined.
  have habove : ∀ site ∈ [0, 1, 0, 1, 0].inits,
      (((ofText .standard .never guardedResource).root.below? site).any
        fun node => node.kind.isOutlined) = true → site = [0, 1, 0, 1, 0] ∨ site <+: [0] := by
    decide +kernel
  have hwalk : (ofText .standard .never guardedResource).root.walk.length = 12 := by decide +kernel
  obtain ⟨rows, entries, shown, hrows, hstack, -, houtline, hshown, hunder, hranges, -⟩ :=
    views_ofText .standard .never guardedResource
  obtain ⟨⟨decl, hdecl, hdecl'⟩, ⟨file, hfile, hfile'⟩⟩ :=
    And.imp Option.map_eq_some_iff.1 Option.map_eq_some_iff.1 hnodes
  obtain ⟨upper, hupper, hsite, rfl⟩ := hshown.exists_shown hrows hdecl (Prod.mk.inj hdecl').1
  obtain ⟨lower, hlower, hsite', rfl⟩ := hshown.exists_shown hrows hfile (Prod.mk.inj hfile').1
  have hnearest : upper.IsNearest (ofText .standard .never guardedResource).root lower := by
    refine ⟨?_, ?_, fun site node hnode hkind hbegins hne => ?_⟩
    · rw [hsite, hsite']
      decide
    · rw [hsite, hsite']
      decide
    · rw [hsite'] at hbegins hne
      rw [hsite]
      exact (habove site ((List.mem_inits _ _).2 hbegins) (by simp [hnode, hkind])).resolve_left hne
  have hbelow := (hunder upper hupper lower hlower).2 hnearest
  have hstack := hstack 13 (by rw [← List.length_map, hrows.walked, hwalk]; decide)
  have ⟨_, _, hchild⟩ := hbelow
  have hrange := (hranges upper hupper).1 _ (List.mem_of_getElem? hchild)
  refine ⟨entries, houtline, upper, lower, hbelow, hsite, ?_, hsite', ?_, hrange.1, hrange.2, ?_⟩
  · rw [(hshown.agrees upper hupper).name, (Prod.mk.inj hdecl').2]
  · rw [(hshown.agrees lower hlower).name, (Prod.mk.inj hfile').2]
  · rw [hstack, hrows.walked]

end Parsed

end Manifest
