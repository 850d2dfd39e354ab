import Mathlib.Data.List.Forall2
import Manifest.Proofs.Tree.Matches
import Manifest.Proofs.Tree.Moves

/-!
# Variables of a string literal

A string literal is made as one element, and then each of its variables is put below it.  What comes
of that is the node of the literal: its children are the references of a scan of the text between
the double quotes, in the order of the scan.
-/

namespace Manifest

/-! ## A literal that is put together -/

namespace Forest

variable {offset : Int} {raw : List Char} {reference : Reference}
  {references more : List Reference}

theorem insertByOffset_last {offsetOf : Nat → Int} {id : Nat} {row : List Nat}
    (h : ∀ other ∈ row, offsetOf other ≤ offsetOf id) :
    insertByOffset offsetOf id row = row ++ [id] := by
  induction row with
  | nil => rfl
  | cons first row ih =>
      rw [List.forall_mem_cons] at h
      rw [insertByOffset, if_neg (Int.not_lt.2 h.1), ih h.2, List.cons_append]

def variableElement (offset : Int) (reference : Reference) : Element where
  offset := offset + 1 + reference.position
  ownEnd? := none
  form := .variable ('$' :: reference.name) reference.length
  parent? := some 0
  children := []

def literal (offset : Int) (raw : List Char) (references : List Reference) : Forest :=
  ⟨⟨offset, none, .string raw, none, List.range' 1 references.length⟩ ::
    references.map (variableElement offset)⟩

theorem size_literal : (literal offset raw references).size = references.length + 1 := by
  simp [literal, size]

theorem get?_literal (index : Nat) : (literal offset raw references).get? (index + 1) =
    (references[index]?).map (variableElement offset) := by
  simp [literal, get?]

theorem add_literal (h : ∀ earlier ∈ references, earlier.position ≤ reference.position) :
    (literal offset raw references).add (offset + 1 + reference.position)
        (.variable ('$' :: reference.name) reference.length) (some 0) =
      literal offset raw (references ++ [reference]) := by
  generalize happended : (literal offset raw references).append (offset + 1 + reference.position)
    (.variable ('$' :: reference.name) reference.length) = appended
  have hfree : appended.parentOf? (references.length + 1) = none := by
    rw [← happended, parentOf?_append, parentOf?, ← size_literal, get?_size]
    rfl
  have helements : (appended.withParent (references.length + 1) (some 0)).elements =
      ⟨offset, none, .string raw, none, List.range' 1 references.length⟩ ::
        (references ++ [reference]).map (variableElement offset) := by
    rw [← happended]
    simp [literal, append, withParent, modify, List.modify_eq_take_drop, variableElement]
  have hrow : insertByOffset appended.offsetOf (references.length + 1)
      (List.range' 1 references.length) = List.range' 1 (references ++ [reference]).length := by
    rw [insertByOffset_last]
    · simp [List.range'_concat, Nat.add_comm]
    · intro other hother
      obtain ⟨index, hindex, rfl⟩ := List.mem_range'.1 hother
      have hlt : index + 1 < (literal offset raw references).size := by
        rw [size_literal]
        omega
      have hnew : appended.offsetOf (references.length + 1) =
          offset + 1 + reference.position := by
        rw [← happended, offsetOf, get?_append, if_pos size_literal.symm]
        rfl
      have hle := h _ (List.getElem_mem hindex)
      rw [hnew, ← happended, Nat.one_mul, Nat.add_comm 1 index, offsetOf_append_of_lt hlt, offsetOf,
        get?_literal, List.getElem?_eq_getElem hindex]
      simp only [Option.map_some, Option.getD_some, variableElement]
      omega
  calc
    _ = appended.setParent (references.length + 1) (some 0) := by
      rw [← happended, ← size_literal]
      rfl
    _ = (appended.withParent (references.length + 1) (some 0)).withRow 0
        (insertByOffset appended.offsetOf (references.length + 1)) := by
      rw [setParent, hfree, if_neg nofun, detach_of_none hfree]
      rfl
    _ = literal offset raw (references ++ [reference]) := by
      rw [withRow, modify, helements, List.modify_zero_cons, hrow]
      rfl

theorem addReferences_literal
    (h : (references ++ more).Pairwise fun left right => left.position ≤ right.position) :
    (literal offset raw references).addReferences 0 (offset + 1) more =
      literal offset raw (references ++ more) := by
  induction more generalizing references with
  | nil => simp [addReferences]
  | cons reference more ih =>
      have hle := (List.pairwise_append.1 h).2.2
      rw [addReferences, List.foldl_cons,
        add_literal fun earlier hearlier => hle earlier hearlier reference List.mem_cons_self]
      rw [List.append_cons] at h
      have hrest := ih h
      rwa [← List.append_cons] at hrest

theorem filterMap_range {α β : Type} (f : α → β) (row : List α) :
    (List.range row.length).filterMap (fun index => (row[index]?).map f) = row.map f := by
  induction row with
  | nil => rfl
  | cons first row ih =>
      rw [List.length_cons, List.range_succ_eq_map, List.filterMap_cons, List.filterMap_map,
        List.map_cons, ← ih]
      rfl

theorem node?_literal : (literal offset raw references).node? 0 =
    some ⟨offset, none, .string raw, references.map (Node.ofReference (offset + 1))⟩ := by
  have hroot : (literal offset raw references).get? 0 =
      some ⟨offset, none, .string raw, none, List.range' 1 references.length⟩ :=
    rfl
  have hvariable : ∀ id ∈ List.range' 1 references.length,
      (literal offset raw references).nodeToDepth? (references.length + 1) id =
        (references[id - 1]?).map (Node.ofReference (offset + 1)) := by
    intro id hid
    obtain ⟨index, hindex, rfl⟩ := List.mem_range'.1 hid
    rw [Nat.one_mul, Nat.add_comm 1 index, nodeToDepth?, get?_literal, Nat.add_sub_cancel]
    cases references[index]? <;> rfl
  rw [node?, size_literal, nodeToDepth?, hroot]
  simp only [Option.bind_eq_bind, Option.bind_some]
  rw [List.filterMap_congr hvariable, List.range'_eq_map_range, List.filterMap_map]
  simp only [Function.comp_def, Nat.add_sub_cancel_left, filterMap_range]
  rfl

theorem node?_create_string (offset : Int) (raw : List Char) :
    (empty.create offset (.string raw) none).node? 0 = some (Node.string offset raw) := by
  have hadded : empty.add offset (.string raw) none = literal offset raw [] := rfl
  have hscanned : Reference.Scanned 0 (Quotation.inner raw)
      (Reference.findAll (Quotation.inner raw)) :=
    Reference.scanned_iff.2 rfl
  have hsorted : (Reference.findAll (Quotation.inner raw)).Pairwise
      fun left right => left.position ≤ right.position :=
    hscanned.pairwise.imp fun hle => by omega
  rw [create, hadded, Node.string, Node.interpolated]
  split
  · rw [show empty.size = 0 from rfl, addReferences_literal (by rwa [List.nil_append]),
      List.nil_append, node?_literal]
  · rw [node?_literal, List.map_nil]

end Forest

/-! ## The variables of a literal -/

theorem Quotation.isQuotedBy_iff {quote : Char} {raw : List Char} :
    isQuotedBy quote raw = true ↔ ∃ text, raw = quote :: text ++ [quote] := by
  constructor
  · intro h
    simp only [isQuotedBy, Bool.and_eq_true, decide_eq_true_eq, beq_iff_eq] at h
    obtain ⟨⟨hlength, hhead⟩, hlast⟩ := h
    obtain ⟨rest, rfl⟩ := List.head?_eq_some_iff.1 hhead
    have hrest : rest ≠ [] := by
      rintro rfl
      simp at hlength
    rw [List.getLast?_cons_of_ne_nil hrest] at hlast
    obtain ⟨text, rfl⟩ := List.getLast?_eq_some_iff.1 hlast
    exact ⟨text, rfl⟩
  · rintro ⟨text, rfl⟩
    have hlast : (quote :: text ++ [quote]).getLast? = some quote := List.getLast?_concat
    rw [isQuotedBy, hlast]
    simp

theorem Quotation.inner_quoted (quote : Char) (text : List Char) :
    inner (quote :: text ++ [quote]) = text := by
  simp [inner]

namespace Node

/-- A node is the variable of a reference in the literal `raw` at `offset`: it is named after the
reference, and spans just what spells it behind the opening quote. -/
structure IsVariableOf (offset : Int) (raw : List Char) (child : Node) (reference : Reference) :
    Prop where
  named : child = leaf child.offset (.variable ('$' :: reference.name) reference.length)
  placed : child.offset = offset + 1 + reference.position
  spelled : ∃ left spelling right, raw = left ++ spelling ++ right ∧
    Reference.IsSpelling reference.name spelling ∧ child.offset = offset + left.length ∧
      child.endOffset = offset + left.length + spelling.length

theorem endOffset_ofReference (start : Int) (reference : Reference) :
    (ofReference start reference).endOffset = start + reference.position + reference.length :=
  rfl

theorem children_string (offset : Int) (text : List Char) :
    (string offset ('"' :: text ++ ['"'])).children =
      (Reference.findAll text).map (ofReference (offset + 1)) := by
  show interpolated offset ('"' :: text ++ ['"']) = _
  rw [interpolated, if_pos (Quotation.isQuotedBy_iff.2 ⟨text, rfl⟩), Quotation.inner_quoted]

/-- The children of a string literal.  Between double quotes they are the references of a scan from
the left, which are the matches of the pattern; they stand apart, and between the quotes. -/
theorem variables_string (offset : Int) (raw : List Char) :
    (Forest.empty.create offset (.string raw) none).node? 0 = some (string offset raw) ∧
    (∀ text, raw = '"' :: text ++ ['"'] → ∃ references,
      (∀ found, Reference.Scanned 0 text found ↔ found = references) ∧
      (∃ attempts, (∀ found, Pattern.Finds text Pattern.interpolation 0 found ↔ found = attempts) ∧
        attempts.map (Attempt.reference? text) = references.map some) ∧
      List.Forall₂ (IsVariableOf offset raw) (string offset raw).children references ∧
      (string offset raw).children.Pairwise (fun left right => left.endOffset ≤ right.offset) ∧
      ∀ child ∈ (string offset raw).children, offset + 1 ≤ child.offset ∧
        child.offset < child.endOffset ∧ child.endOffset ≤ offset + 1 + text.length) ∧
    ((∀ text, raw ≠ '"' :: text ++ ['"']) → (string offset raw).children = []) := by
  refine ⟨Forest.node?_create_string offset raw, fun text hraw => ?_, fun hunquoted => ?_⟩
  · subst hraw
    have hscanned : Reference.Scanned 0 text (Reference.findAll text) :=
      Reference.scanned_iff.2 rfl
    obtain ⟨attempts, hfinds, hsame⟩ := Pattern.exists_finds [] text
    rw [children_string]
    refine ⟨Reference.findAll text, fun found => Reference.scanned_iff,
      ⟨attempts, fun found => ⟨fun h => h.unique hfinds, fun h => h ▸ hfinds⟩, hsame⟩, ?_, ?_, ?_⟩
    · rw [List.forall₂_map_left_iff, List.forall₂_same]
      intro reference hreference
      obtain ⟨left, spelling, right, rfl, hposition, hlength, hspelling⟩ :=
        hscanned.standsIn reference hreference
      refine ⟨rfl, rfl, '"' :: left, spelling, right ++ ['"'], by simp, hspelling, ?_, ?_⟩
      · show offset + 1 + reference.position = _
        rw [hposition, List.length_cons]
        omega
      · rw [endOffset_ofReference, hposition, hlength, List.length_cons]
        omega
    · rw [List.pairwise_map]
      refine hscanned.pairwise.imp fun {left right} hle => ?_
      show offset + 1 + left.position + left.length ≤ offset + 1 + right.position
      omega
    · rw [List.forall_mem_map]
      intro reference hreference
      obtain ⟨left, spelling, right, rfl, hposition, hlength, hspelling⟩ :=
        hscanned.standsIn reference hreference
      have hpos := hspelling.length_pos
      rw [endOffset_ofReference]
      show offset + 1 ≤ offset + 1 + reference.position ∧
        offset + 1 + reference.position < offset + 1 + reference.position + reference.length ∧ _
      simp only [List.length_append]
      omega
  · show interpolated offset raw = []
    rw [interpolated, if_neg fun h => ?_]
    obtain ⟨text, hraw⟩ := Quotation.isQuotedBy_iff.1 h
    exact hunquoted text hraw

def escapedText : List Char :=
  "\\\\$x\\$y$\x7b::a\x7d$b::c:::$d".toList

theorem variables_string_escapedText :
    List.Forall₂ (IsVariableOf 5 ('"' :: escapedText ++ ['"']))
        (string 5 ('"' :: escapedText ++ ['"'])).children
        [⟨['x'], 2, 2⟩, ⟨"::a".toList, 7, 6⟩, ⟨"b::c".toList, 13, 5⟩, ⟨['d'], 21, 2⟩] ∧
      (string 5 ('\'' :: escapedText ++ ['\''])).children = [] := by
  have hfound : Reference.findAll escapedText =
      [⟨['x'], 2, 2⟩, ⟨"::a".toList, 7, 6⟩, ⟨"b::c".toList, 13, 5⟩, ⟨['d'], 21, 2⟩] := by
    decide +kernel
  obtain ⟨references, hscanned, -, hvariables, -⟩ :=
    (variables_string 5 ('"' :: escapedText ++ ['"'])).2.1 escapedText rfl
  rw [← (hscanned _).1 (Reference.scanned_iff.2 rfl), hfound] at hvariables
  exact ⟨hvariables, (variables_string 5 ('\'' :: escapedText ++ ['\''])).2.2 fun text => nofun⟩

end Node

end Manifest
