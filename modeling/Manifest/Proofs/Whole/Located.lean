import Manifest.Proofs.Parsing.TopLevel
import Manifest.Proofs.Tree.Places

/-!
# What stands at an offset

In the tree of a text some element stands at every offset of it.  The element found there is the
deepest: all others that hold the offset are above it.
-/

namespace Manifest

namespace Parsed

theorem contains_root (options : ParseOptions) (interruption : Interruption)
    (source : List Char) (offset : Int) :
    (ofText options interruption source).root.contains offset = true ↔
      0 ≤ offset ∧ offset < source.length := by
  obtain ⟨-, hstart, hend⟩ := spans_ofText options interruption source
  rw [Node.contains_iff, hstart, hend]

/-- The element found at an offset of a text is the deepest that holds it, and the others that
do are the ones above it. -/
theorem elementAt_ofText (options : ParseOptions) (interruption : Interruption)
    (source : List Char) (offset : Int) :
    ((ofText options interruption source).root.elementAt offset = none ↔
        ¬(0 ≤ offset ∧ offset < source.length)) ∧
      ∀ found, (ofText options interruption source).root.elementAt offset = some found →
        found.offset ≤ offset ∧ offset < found.endOffset ∧
        ∃ place, (ofText options interruption source).root.below? place = some found ∧
          (ofText options interruption source).root.pathAt offset =
            found :: (ofText options interruption source).root.above place ∧
          (∀ other element, (ofText options interruption source).root.below? other = some element →
            element.offset ≤ offset → offset < element.endOffset →
              other <+: place ∧ other.length ≤ place.length) ∧
          ∀ element ∈ (ofText options interruption source).root.walk,
            element.offset ≤ offset → offset < element.endOffset →
              element = found ∨
                element ∈ (ofText options interruption source).root.above place := by
  have hspanned := (fits_root options interruption source).2.1
  refine ⟨?_, fun found hfound => ?_⟩
  · rw [Node.elementAt_eq_none_iff, ← contains_root options interruption, Bool.not_eq_true]
  · obtain ⟨place, hdeepest, hpath⟩ := Node.exists_deepest hfound
    obtain ⟨hstart, hend⟩ := Node.contains_iff.1 hdeepest.holds
    refine ⟨hstart, hend, place, hdeepest.below, hpath, ?_, ?_⟩
    · intro other element helement hbegins hends
      have hway := hdeepest.isPrefix hspanned helement (Node.contains_iff.2 ⟨hbegins, hends⟩)
      exact ⟨hway, hway.length_le⟩
    · exact fun element helement hbegins hends =>
        hdeepest.mem_above hspanned helement (Node.contains_iff.2 ⟨hbegins, hends⟩)

def definedInClass : List Char :=
  "class a \x7b $x = [1] \x7d".toList

theorem elementAt_ofText_definedInClass :
    ∃ found place, (ofText .standard .never definedInClass).root.elementAt 10 = some found ∧
      found.kind = .variableDefinition ∧
      (ofText .standard .never definedInClass).root.below? place = some found ∧
      (ofText .standard .never definedInClass).root ∈
        (ofText .standard .never definedInClass).root.above place ∧
      (ofText .standard .never definedInClass).root.elementAt 20 = none := by
  have hkind : ((ofText .standard .never definedInClass).root.elementAt 10).map Node.kind =
      some .variableDefinition := by
    decide +kernel
  obtain ⟨found, hfound, hkind⟩ := Option.map_eq_some_iff.1 hkind
  obtain ⟨-, -, place, hplace, -, -, habove⟩ :=
    (elementAt_ofText .standard .never definedInClass 10).2 found hfound
  have hnone : ¬((0 : Int) ≤ 20 ∧ (20 : Int) < definedInClass.length) := by decide +kernel
  refine ⟨found, place, hfound, hkind, hplace, ?_,
    (elementAt_ofText .standard .never definedInClass 20).1.2 hnone⟩
  refine (habove _ (Node.mem_walk_iff.2 ⟨[], rfl⟩) (by decide +kernel)
    (by decide +kernel)).resolve_left ?_
  rintro rfl
  cases hkind

end Parsed

end Manifest
