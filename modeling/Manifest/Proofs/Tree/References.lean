import Mathlib.Algebra.Ring.Parity
import Mathlib.Data.List.Basic
import Mathlib.Data.List.TakeWhile
import Manifest.Proofs.Tree.Interpolated

/-!
# The form of a reference

A reference is a dollar sign with a name in braces, or with the longest bare name that follows.
A scan from the left that takes a backslash together with the character behind it finds the
references that are found by looking at what stands in front of each place.
-/

namespace Manifest

namespace Reference

variable {c : Char} {name other rest behind text more : List Char} {position length : Nat}
  {reference : Reference} {references : List Reference}

/-! ## Names -/

/-- The form of a name in braces: colons may stand anywhere in it, digits not in front. -/
def IsBracedName (name : List Char) : Prop :=
  ∃ c more, name = c :: more ∧ (isNameStart c || c == ':') = true ∧
    ∀ d ∈ more, (isNamePart d || d == ':') = true

def IsSegment (segment : List Char) : Prop :=
  ∃ c more, segment = c :: more ∧ isNameStart c = true ∧ ∀ d ∈ more, isNamePart d = true

def joint : List Char :=
  [':', ':']

/-- The form of a bare name: one segment or more. -/
def IsBareName (name : List Char) : Prop :=
  ∃ segments, segments ≠ [] ∧ (∀ segment ∈ segments, IsSegment segment) ∧
    name = joint.intercalate segments

/-- What goes on a bare name: parts of its last segment, and further segments. -/
inductive GoesOn : List Char → Prop
  | nil : GoesOn []
  | part {c : Char} {more : List Char} :
      isNamePart c = true → GoesOn more → GoesOn (c :: more)
  | segment {c : Char} {more : List Char} :
      isNameStart c = true → GoesOn more → GoesOn (':' :: ':' :: c :: more)

theorem isNamePart_of_start (h : isNameStart c = true) : isNamePart c = true := by
  unfold isNameStart at h
  unfold isNamePart Char.isAlphanum
  rcases (Bool.or_eq_true _ _).mp h with h | h <;> simp [h]

theorem isNamePart_colon : isNamePart ':' = false := by
  decide

theorem goesOn_parts (hparts : ∀ d ∈ name, isNamePart d = true) (hmore : GoesOn more) :
    GoesOn (name ++ more) := by
  induction name with
  | nil => exact hmore
  | cons d name ih =>
      exact .part (hparts d List.mem_cons_self)
        (ih fun e he => hparts e (List.mem_cons_of_mem _ he))

theorem intercalate_joint (segment : List Char) (segments : List (List Char)) :
    joint.intercalate (segment :: segments) =
      segment ++ segments.flatMap fun further => ':' :: ':' :: further := by
  induction segments generalizing segment with
  | nil => simp [List.intercalate]
  | cons further segments ih =>
      rw [List.flatMap_cons, List.cons_append, List.cons_append, ← ih further]
      simp [List.intercalate, joint]

theorem isBareName_cons : IsBareName (c :: more) ↔ isNameStart c = true ∧ GoesOn more := by
  constructor
  · rintro ⟨segments, hsome, hsegments, hname⟩
    obtain ⟨segment, segments, rfl⟩ := List.exists_cons_of_ne_nil hsome
    obtain ⟨d, first, rfl, hstart, hparts⟩ := hsegments segment List.mem_cons_self
    rw [intercalate_joint, List.cons_append] at hname
    obtain ⟨rfl, rfl⟩ := List.cons.inj hname
    refine ⟨hstart, goesOn_parts hparts ?_⟩
    clear hsome hname
    induction segments with
    | nil => exact .nil
    | cons further segments ih =>
        obtain ⟨e, more, rfl, hstart', hparts'⟩ := hsegments further (by simp)
        exact .segment hstart' (goesOn_parts hparts' (ih fun segment hsegment =>
          hsegments segment (by
            rcases List.mem_cons.1 hsegment with rfl | hsegment <;> simp [*])))
  · rintro ⟨hstart, hmore⟩
    -- The parts in front belong to the segment of `c`.
    have hsplit : ∃ (first : List Char) (segments : List (List Char)),
        (∀ d ∈ first, isNamePart d = true) ∧
        (∀ segment ∈ segments, IsSegment segment) ∧
        more = first ++ segments.flatMap fun further => ':' :: ':' :: further := by
      induction hmore with
      | nil => exact ⟨[], [], by simp, by simp, rfl⟩
      | part hpart _ ih =>
          obtain ⟨first, segments, hfirst, hsegments, rfl⟩ := ih
          exact ⟨_ :: first, segments, List.forall_mem_cons.2 ⟨hpart, hfirst⟩, hsegments, rfl⟩
      | segment hstart' _ ih =>
          obtain ⟨first, segments, hfirst, hsegments, rfl⟩ := ih
          exact ⟨[], (_ :: first) :: segments, by simp,
            List.forall_mem_cons.2 ⟨⟨_, first, rfl, hstart', hfirst⟩, hsegments⟩, by simp⟩
    obtain ⟨first, segments, hfirst, hsegments, rfl⟩ := hsplit
    refine ⟨(c :: first) :: segments, List.cons_ne_nil _ _,
      List.forall_mem_cons.2 ⟨⟨c, first, rfl, hstart, hfirst⟩, hsegments⟩, ?_⟩
    rw [intercalate_joint, List.cons_append]

theorem not_isBareName_nil : ¬ IsBareName [] := by
  rintro ⟨segments, hsome, hsegments, hname⟩
  obtain ⟨segment, segments, rfl⟩ := List.exists_cons_of_ne_nil hsome
  obtain ⟨d, first, rfl, -⟩ := hsegments segment List.mem_cons_self
  rw [intercalate_joint] at hname
  cases hname

/-! ## The longest bare name -/

structure LongestBare (rest name : List Char) : Prop where
  begins : name <+: rest
  hasForm : IsBareName name
  longest : ∀ other, other <+: rest → IsBareName other → other.length ≤ name.length

theorem LongestBare.unique (h : LongestBare rest name) (h' : LongestBare rest other) :
    name = other :=
  (List.prefix_of_prefix_length_le h.begins h'.begins
    (h'.longest name h.begins h.hasForm)).eq_of_length_le
      (h.longest other h'.begins h'.hasForm)

theorem goesOn_bareSize (rest : List Char) : GoesOn (rest.take (bareSize rest)) := by
  fun_induction bareSize rest with
  | case1 c rest hstart ih =>
      rw [Nat.add_comm]
      exact .segment hstart ih
  | case2 => exact .nil
  | case3 c rest _ hpart ih =>
      rw [Nat.add_comm]
      exact .part hpart ih
  | case4 => exact .nil
  | case5 => exact .nil

theorem bareSize_part (hpart : isNamePart c = true) (rest : List Char) :
    bareSize (c :: rest) = 1 + bareSize rest := by
  rw [bareSize, if_pos hpart]
  rintro d after rfl -
  cases hpart.symm.trans isNamePart_colon

theorem bareSize_run (rest : List Char) :
    bareSize rest = (rest.takeWhile isNamePart).length +
      bareSize (rest.dropWhile isNamePart) := by
  induction rest with
  | nil => rfl
  | cons c rest ih =>
      by_cases hc : isNamePart c = true
      · rw [bareSize_part hc, ih, List.takeWhile_cons_of_pos hc,
          List.dropWhile_cons_of_pos hc, List.length_cons]
        omega
      · rw [List.takeWhile_cons_of_neg hc, List.dropWhile_cons_of_neg hc, List.length_nil,
          Nat.zero_add]

theorem bareSize_le (rest : List Char) : bareSize rest ≤ rest.length := by
  fun_induction bareSize rest <;> simp <;> omega

theorem length_le_bareSize (h : GoesOn more) (hmore : more <+: rest) :
    more.length ≤ bareSize rest := by
  obtain ⟨behind, rfl⟩ := hmore
  induction h with
  | nil => exact Nat.zero_le _
  | part hpart _ ih =>
      rw [List.cons_append, bareSize_part hpart, List.length_cons, Nat.add_comm]
      exact Nat.add_le_add_left ih 1
  | segment hstart _ ih =>
      simp only [List.cons_append, List.length_cons]
      rw [bareSize, if_pos hstart]
      omega

theorem bareName?_eq_some_iff : bareName? rest = some name ↔ LongestBare rest name := by
  have hlongest : ∀ c more, isNameStart c = true →
      LongestBare (c :: more) (c :: more.take (bareSize more)) := by
    intro c more hstart
    refine ⟨(List.prefix_cons_inj c).2 (List.take_prefix _ _),
      isBareName_cons.2 ⟨hstart, goesOn_bareSize more⟩, fun other hother hform => ?_⟩
    cases other with
    | nil => exact Nat.zero_le _
    | cons d other =>
        obtain ⟨rfl, hbegins⟩ := List.cons_prefix_cons.1 hother
        have hle := length_le_bareSize (isBareName_cons.1 hform).2 hbegins
        have hle' := hbegins.length_le
        simp only [List.length_cons, List.length_take]
        omega
  constructor
  · intro h
    unfold bareName? at h
    split at h
    · split at h
      · obtain rfl := Option.some.inj h
        exact hlongest _ _ ‹_›
      · cases h
    · cases h
  · intro h
    obtain ⟨c, more, rfl⟩ : ∃ c more, name = c :: more :=
      List.exists_cons_of_ne_nil fun hnil => not_isBareName_nil (hnil ▸ h.hasForm)
    have hstart := (isBareName_cons.1 h.hasForm).1
    obtain ⟨behind, rfl⟩ := h.begins
    rw [List.cons_append, bareName?, if_pos hstart]
    exact congrArg some ((hlongest c (more ++ behind) hstart).unique h)

/-! ## Names in braces -/

theorem bracedName?_eq_some_iff :
    bracedName? rest = some name ↔
      IsBracedName name ∧ ∃ behind, rest = '\x7b' :: name ++ '\x7d' :: behind := by
  constructor
  · intro h
    unfold bracedName? at h
    split at h
    · rename_i c rest
      dsimp only at h
      split at h
      · rename_i behind hclosing
        split at h
        · rename_i hstart
          obtain rfl := Option.some.inj h
          have hparts : ∀ d ∈ rest.takeWhile (fun d => isNamePart d || d == ':'),
              (isNamePart d || d == ':') = true := fun _ =>
            List.mem_takeWhile_imp
          refine ⟨⟨c, _, rfl, hstart, hparts⟩, behind, ?_⟩
          rw [← hclosing, List.cons_append, List.cons_append, List.takeWhile_append_dropWhile]
        · cases h
      · cases h
    · cases h
  · rintro ⟨⟨c, more, rfl, hstart, hparts⟩, behind, rfl⟩
    have htake :
        (more ++ '\x7d' :: behind).takeWhile (fun d => isNamePart d || d == ':') = more := by
      rw [List.takeWhile_append_of_pos hparts, List.takeWhile_cons_of_neg (by decide),
        List.append_nil]
    have hdrop : (more ++ '\x7d' :: behind).dropWhile (fun d => isNamePart d || d == ':') =
        '\x7d' :: behind := by
      rw [List.dropWhile_append_of_pos hparts, List.dropWhile_cons_of_neg (by decide)]
    simp only [List.cons_append, bracedName?]
    rw [htake, hdrop]
    simp only [hstart, if_true]

/-! ## References behind a dollar sign -/

/-- What follows a dollar sign spells a reference: a name in braces, or else the longest bare name.
With the sign it takes `length` characters. -/
def Spells (rest name : List Char) (length : Nat) : Prop :=
  (IsBracedName name ∧ ∃ behind, rest = '\x7b' :: name ++ '\x7d' :: behind) ∧
      length = name.length + 3 ∨
    LongestBare rest name ∧ length = name.length + 1

theorem bracedName?_of_bare (h : LongestBare rest name) : bracedName? rest = none := by
  cases hbraced : bracedName? rest with
  | none => rfl
  | some inner =>
      obtain ⟨-, behind, rfl⟩ := bracedName?_eq_some_iff.1 hbraced
      have hform := h.hasForm
      obtain ⟨after, hrest⟩ := h.begins
      cases name with
      | nil => exact (not_isBareName_nil hform).elim
      | cons c more =>
          obtain ⟨rfl, -⟩ := List.cons.inj hrest
          exact absurd (isBareName_cons.1 hform).1 (by decide)

theorem at?_eq_some_iff : at? position rest = some reference ↔
    reference.position = position ∧ Spells rest reference.name reference.length := by
  obtain ⟨name, place, length⟩ := reference
  unfold at?
  constructor
  · intro h
    cases hbraced : bracedName? rest with
    | some found =>
        rw [hbraced] at h
        cases h
        exact ⟨rfl, .inl ⟨bracedName?_eq_some_iff.1 hbraced, rfl⟩⟩
    | none =>
        rw [hbraced] at h
        obtain ⟨found, hbare, heq⟩ := Option.map_eq_some_iff.1 h
        cases heq
        exact ⟨rfl, .inr ⟨bareName?_eq_some_iff.1 hbare, rfl⟩⟩
  · dsimp only
    rintro ⟨rfl, ⟨hbraced, rfl⟩ | ⟨hbare, rfl⟩⟩
    · rw [bracedName?_eq_some_iff.2 hbraced]
    · rw [bracedName?_of_bare hbare, bareName?_eq_some_iff.2 hbare]
      rfl

theorem part_of_goesOn (h : GoesOn more) : ∀ d ∈ more, (isNamePart d || d == ':') = true := by
  induction h with
  | nil => simp
  | part hpart _ ih => exact List.forall_mem_cons.2 ⟨by rw [hpart]; rfl, ih⟩
  | segment hstart _ ih =>
      simp only [List.forall_mem_cons]
      exact ⟨by decide, by decide, by rw [isNamePart_of_start hstart]; rfl, ih⟩

theorem part_of_isBareName (h : IsBareName name) :
    ∀ d ∈ name, (isNamePart d || d == ':') = true := by
  cases name with
  | nil => simp
  | cons c more =>
      obtain ⟨hstart, hmore⟩ := isBareName_cons.1 h
      exact List.forall_mem_cons.2 ⟨by rw [isNamePart_of_start hstart]; rfl, part_of_goesOn hmore⟩

/-- A reference has a last character, which is no backslash. -/
theorem Spells.split (h : Spells rest name length) : ∃ init last, length = init.length + 2 ∧
    last ≠ '\\' ∧ rest = init ++ last :: rest.drop (length - 1) := by
  rcases h with ⟨⟨-, behind, rfl⟩, rfl⟩ | ⟨hlongest, rfl⟩
  · refine ⟨'\x7b' :: name, '\x7d', rfl, by decide, ?_⟩
    simp
  · obtain ⟨behind, rfl⟩ := hlongest.begins
    rcases List.eq_nil_or_concat' name with rfl | ⟨init, last, rfl⟩
    · exact (not_isBareName_nil hlongest.hasForm).elim
    · refine ⟨init, last, by simp, ?_, by simp⟩
      rintro rfl
      exact absurd (part_of_isBareName hlongest.hasForm '\\' (by simp)) (by decide)

/-! ## A scan from the left -/

/-- The references that a scan finds in a text at `position`.  A backslash is taken together with
the character behind it, a dollar sign with the reference that it opens, all else by itself. -/
inductive Scanned : Nat → List Char → List Reference → Prop
  | nil {position : Nat} : Scanned position [] []
  | escape {position : Nat} {c : Char} {rest : List Char} {references : List Reference} :
      Scanned (position + 2) rest references → Scanned position ('\\' :: c :: rest) references
  | reference {position length : Nat} {rest name : List Char} {references : List Reference} :
      Spells rest name length →
      Scanned (position + length) (rest.drop (length - 1)) references →
      Scanned position ('$' :: rest) (⟨name, position, length⟩ :: references)
  | other {position : Nat} {c : Char} {rest : List Char} {references : List Reference} :
      (c = '\\' → rest = []) → (c = '$' → ∀ name length, ¬ Spells rest name length) →
      Scanned (position + 1) rest references → Scanned position (c :: rest) references

theorem Spells.unique {length' : Nat} (h : Spells rest name length)
    (h' : Spells rest other length') : name = other ∧ length = length' := by
  have hfirst : at? 0 rest = some ⟨name, 0, length⟩ := at?_eq_some_iff.2 ⟨rfl, h⟩
  have hsecond : at? 0 rest = some ⟨other, 0, length'⟩ := at?_eq_some_iff.2 ⟨rfl, h'⟩
  have heq := Option.some.inj (hfirst.symm.trans hsecond)
  rw [mk.injEq] at heq
  exact ⟨heq.1, heq.2.2⟩

theorem Scanned.unique {found : List Reference} (h : Scanned position text references)
    (h' : Scanned position text found) : references = found := by
  induction h generalizing found with
  | nil =>
      cases h'
      rfl
  | escape _ ih =>
      cases h' with
      | escape hrest => exact ih hrest
      | other hlast _ _ => cases hlast rfl
  | reference hspells _ ih =>
      cases h' with
      | reference hspells' hrest =>
          obtain ⟨rfl, rfl⟩ := hspells.unique hspells'
          rw [ih hrest]
      | other _ hnone _ => exact (hnone rfl _ _ hspells).elim
  | other hlast hnone _ ih =>
      cases h' with
      | escape _ => cases hlast rfl
      | reference hspells _ => exact (hnone rfl _ _ hspells).elim
      | other _ _ hrest => exact ih hrest

/-! ## Where references stand -/

def IsSpelling (name spelling : List Char) : Prop :=
  spelling = '$' :: name ∨ spelling = '$' :: '\x7b' :: (name ++ ['\x7d'])

/-- A reference spans one of its spellings in a text at `position`. -/
def StandsIn (position : Nat) (text : List Char) (reference : Reference) : Prop :=
  ∃ left spelling right, text = left ++ spelling ++ right ∧
    reference.position = position + left.length ∧ reference.length = spelling.length ∧
      IsSpelling reference.name spelling

theorem IsSpelling.length_pos {spelling : List Char} (h : IsSpelling name spelling) :
    0 < spelling.length := by
  rcases h with rfl | rfl <;> simp

theorem Spells.spelling (h : Spells rest name length) : ∃ spelling, IsSpelling name spelling ∧
    length = spelling.length ∧ '$' :: rest = spelling ++ rest.drop (length - 1) := by
  rcases h with ⟨⟨-, behind, rfl⟩, rfl⟩ | ⟨hlongest, rfl⟩
  · exact ⟨_, .inr rfl, by simp, by simp⟩
  · obtain ⟨behind, rfl⟩ := hlongest.begins
    exact ⟨_, .inl rfl, by simp, by simp⟩

theorem StandsIn.shifted (front : List Char)
    (h : reference.StandsIn (position + front.length) text) :
    reference.StandsIn position (front ++ text) := by
  obtain ⟨left, spelling, right, rfl, hposition, hlength, hspelling⟩ := h
  refine ⟨front ++ left, spelling, right, by simp, ?_, hlength, hspelling⟩
  rw [hposition, List.length_append, Nat.add_assoc]

theorem Scanned.standsIn (h : Scanned position text references) :
    ∀ reference ∈ references, reference.StandsIn position text := by
  induction h with
  | nil => simp
  | @escape _ c _ _ _ ih =>
      exact fun reference hreference => .shifted ['\\', c] (ih reference hreference)
  | reference hspells _ ih =>
      obtain ⟨spelling, hspelling, hlength, htext⟩ := hspells.spelling
      rw [htext]
      refine List.forall_mem_cons.2 ⟨?_, fun reference hreference => .shifted spelling ?_⟩
      · exact ⟨[], spelling, _, rfl, rfl, hlength, hspelling⟩
      · exact hlength ▸ ih reference hreference
  | @other _ c _ _ _ _ _ ih =>
      exact fun reference hreference => .shifted [c] (ih reference hreference)

theorem Scanned.pairwise (h : Scanned position text references) :
    references.Pairwise fun left right => left.position + left.length ≤ right.position := by
  induction h with
  | nil => exact .nil
  | escape _ ih => exact ih
  | reference _ hrest ih =>
      refine List.pairwise_cons.2 ⟨fun reference hreference => ?_, ih⟩
      obtain ⟨left, -, -, -, hposition, -⟩ := hrest.standsIn reference hreference
      dsimp only
      omega
  | other _ _ _ ih => exact ih

theorem Scanned.backslashes (pairs : Nat) (h : Scanned (position + 2 * pairs) rest references) :
    Scanned position (List.replicate (2 * pairs) '\\' ++ rest) references := by
  induction pairs generalizing position with
  | zero => exact h
  | succ pairs ih =>
      rw [Nat.mul_succ, List.replicate_succ, List.replicate_succ]
      refine .escape (ih ?_)
      rwa [Nat.mul_succ, ← Nat.add_assoc, Nat.add_right_comm] at h

/-! ## Looking at each place -/

section Places

variable {before : Option Char} {pairs count : Nat}

theorem here?_after_backslash (position : Nat) (text : List Char) :
    here? (some '\\') position text = none := by
  simp [here?]

theorem backslashPairs_replicate (hrest : ∀ more, rest ≠ '\\' :: '\\' :: more) (pairs : Nat) :
    backslashPairs (List.replicate (2 * pairs) '\\' ++ rest) = pairs := by
  induction pairs with
  | zero =>
      show backslashPairs rest = 0
      unfold backslashPairs
      split
      · exact (hrest _ rfl).elim
      · rfl
  | succ pairs ih =>
      rw [Nat.mul_succ, List.replicate_succ, List.replicate_succ, List.cons_append,
        List.cons_append, backslashPairs, ih, Nat.add_comm]

def opened? (position : Nat) : List Char → Option Reference
  | '$' :: rest => at? position rest
  | _ => none

theorem opened?_eq_some_iff : opened? position text = some reference ↔
    ∃ rest, text = '$' :: rest ∧ reference.position = position ∧
      Spells rest reference.name reference.length := by
  constructor
  · intro h
    unfold opened? at h
    split at h
    · exact ⟨_, rfl, at?_eq_some_iff.1 h⟩
    · cases h
  · rintro ⟨rest, rfl, hspells⟩
    exact at?_eq_some_iff.2 hspells

theorem here?_pairs (hbefore : before ≠ some '\\')
    (hrest : ∀ more, rest ≠ '\\' :: '\\' :: more) :
    here? before position (List.replicate (2 * pairs) '\\' ++ rest) =
      opened? (position + 2 * pairs) rest := by
  rw [here?, if_neg hbefore]
  dsimp only
  rw [backslashPairs_replicate hrest, List.drop_left' (List.length_replicate ..)]
  rfl

theorem findAfter_of_none (h : here? before position (c :: rest) = none) :
    findAfter 0 before position (c :: rest) = findAfter 0 (some c) (position + 1) rest := by
  rw [findAfter, h]

/-- Nothing is found right behind a backslash. -/
theorem findAfter_backslashes (count : Nat) :
    findAfter 0 (some '\\') position (List.replicate count '\\' ++ rest) =
      findAfter 0 (some '\\') (position + count) rest := by
  induction count generalizing position with
  | zero => rfl
  | succ count ih =>
      rw [List.replicate_succ, List.cons_append, findAfter_of_none (here?_after_backslash _ _), ih,
        Nat.add_assoc, Nat.add_comm 1]

/-- If nothing is found at a run of backslashes, the search goes on behind the character that
follows them. -/
theorem findAfter_run (h : here? before position (List.replicate count '\\' ++ c :: rest) = none) :
    findAfter 0 before position (List.replicate count '\\' ++ c :: rest) =
      findAfter 0 (some c) (position + count + 1) rest := by
  cases count with
  | zero => exact findAfter_of_none h
  | succ count =>
      rw [List.replicate_succ, List.cons_append] at h ⊢
      rw [findAfter_of_none h, findAfter_backslashes, findAfter_of_none (here?_after_backslash _ _),
        Nat.add_right_comm position 1]
      rfl

theorem findAfter_run_nil (h : here? before position (List.replicate count '\\') = none) :
    findAfter 0 before position (List.replicate count '\\') = [] := by
  cases count with
  | zero => rfl
  | succ count =>
      rw [List.replicate_succ] at h ⊢
      have hrest : findAfter 0 (some '\\') (position + 1) (List.replicate count '\\' ++ []) =
          findAfter 0 (some '\\') (position + 1 + count) [] :=
        findAfter_backslashes count
      rw [List.append_nil] at hrest
      rw [findAfter_of_none h, hrest, findAfter]

theorem findAfter_taken (left : List Char) (last : Char) (right : List Char) :
    findAfter (left.length + 1) before position (left ++ last :: right) =
      findAfter 0 (some last) (position + left.length + 1) right := by
  induction left generalizing before position with
  | nil => rfl
  | cons d left ih =>
      rw [List.cons_append, List.length_cons, findAfter, ih, Nat.add_right_comm position 1]
      rfl

/-- Behind a reference the search goes on after its last character. -/
theorem findAfter_of_some {left right : List Char} {last : Char}
    (h : here? before position (left ++ last :: right) = some reference)
    (hend : reference.position + reference.length = position + left.length + 1) :
    findAfter 0 before position (left ++ last :: right) =
      reference :: findAfter 0 (some last) (reference.position + reference.length) right := by
  cases left with
  | nil =>
      rw [List.nil_append] at h ⊢
      have hskip : reference.position + reference.length - position - 1 = 0 := by
        rw [hend, List.length_nil]
        omega
      rw [findAfter, h]
      dsimp only
      rw [hskip, hend]
      rfl
  | cons d left =>
      rw [List.cons_append] at h ⊢
      have hskip : reference.position + reference.length - position - 1 = left.length + 1 := by
        rw [hend, List.length_cons]
        omega
      rw [findAfter, h]
      dsimp only
      rw [hskip, findAfter_taken, hend, List.length_cons, Nat.add_right_comm position 1]
      rfl

theorem exists_last (h : here? before position text = some reference) :
    ∃ init last behind, text = init ++ last :: behind ∧
      reference.position + reference.length = position + init.length + 1 := by
  obtain ⟨hposition, hpos, hend⟩ := here?_bounds h
  obtain ⟨size, hsize⟩ : ∃ size, reference.position + reference.length = position + size + 1 :=
    ⟨reference.position + reference.length - position - 1, by omega⟩
  have hlt : size < text.length := by omega
  refine ⟨text.take size, text[size], text.drop (size + 1), ?_, ?_⟩
  · rw [List.getElem_cons_drop, List.take_append_drop]
  · rw [hsize, List.length_take, Nat.min_eq_left (Nat.le_of_lt hlt)]

theorem exists_backslashes (text : List Char) : ∃ count rest,
    text = List.replicate count '\\' ++ rest ∧ rest.head? ≠ some '\\' := by
  induction text with
  | nil => exact ⟨0, [], rfl, by simp⟩
  | cons c text ih =>
      by_cases hc : c = '\\'
      · obtain ⟨count, rest, rfl, hrest⟩ := ih
        exact ⟨count + 1, rest, by rw [hc, List.replicate_succ, List.cons_append], hrest⟩
      · exact ⟨0, c :: text, rfl, by simpa using hc⟩

theorem exists_behind_opened (hbefore : before ≠ some '\\')
    (hopened : opened? (position + 2 * pairs) rest = some reference) :
    ∃ last behind, last ≠ '\\' ∧ behind.length < rest.length ∧
      findAfter 0 before position (List.replicate (2 * pairs) '\\' ++ rest) =
        reference :: findAfter 0 (some last) (reference.position + reference.length) behind ∧
      ∀ references, Scanned (reference.position + reference.length) behind references →
        Scanned (position + 2 * pairs) rest (reference :: references) := by
  obtain ⟨rest, rfl, hposition, hspells⟩ := opened?_eq_some_iff.1 hopened
  obtain ⟨init, last, hlength, hlast, hsplit⟩ := hspells.split
  have hhere : here? before position (List.replicate (2 * pairs) '\\' ++ '$' :: rest) =
      some reference := by
    rw [here?_pairs hbefore (by simp), hopened]
  have htext : List.replicate (2 * pairs) '\\' ++ '$' :: rest =
      (List.replicate (2 * pairs) '\\' ++ '$' :: init) ++
        last :: rest.drop (reference.length - 1) := by
    rw [List.append_assoc, List.cons_append, ← hsplit]
  refine ⟨last, rest.drop (reference.length - 1), hlast, ?_, ?_, fun references hscanned => ?_⟩
  · simp only [List.length_drop, List.length_cons]
    omega
  · rw [htext] at hhere ⊢
    refine findAfter_of_some hhere ?_
    simp
    omega
  · rw [hposition] at hscanned
    rw [show reference = ⟨reference.name, position + 2 * pairs, reference.length⟩ by
      rw [← hposition]]
    exact .reference hspells hscanned

/-- A scan and the search agree behind any character of a row but a backslash. -/
def AgreeBehind (rest : List Char) : Prop :=
  ∀ behind (last : Char) position, behind.length < rest.length → last ≠ '\\' →
    Scanned position behind (findAfter 0 (some last) position behind)

/-- Pairs of backslashes are passed over, and a reference may follow them. -/
theorem scanned_pairs (hbefore : before ≠ some '\\') (hrest : rest.head? ≠ some '\\')
    (hagree : AgreeBehind rest) :
    Scanned position (List.replicate (2 * pairs) '\\' ++ rest)
      (findAfter 0 before position (List.replicate (2 * pairs) '\\' ++ rest)) := by
  have hhere : here? before position (List.replicate (2 * pairs) '\\' ++ rest) =
      opened? (position + 2 * pairs) rest :=
    here?_pairs hbefore (by rintro more rfl; simp at hrest)
  cases hopened : opened? (position + 2 * pairs) rest with
  | some reference =>
      obtain ⟨last, behind, hlast, hlt, hfound, hscanned⟩ := exists_behind_opened hbefore hopened
      rw [hfound]
      exact .backslashes pairs (hscanned _ (hagree behind last _ hlt hlast))
  | none =>
      rw [hopened] at hhere
      cases rest with
      | nil =>
          rw [List.append_nil] at hhere ⊢
          rw [findAfter_run_nil hhere]
          simpa using Scanned.backslashes pairs .nil
      | cons c rest =>
          have hplain : c ≠ '\\' := by simpa using hrest
          have hunopened : c = '$' → ∀ name length, ¬ Spells rest name length := by
            rintro rfl name length hspells
            have hsome : opened? (position + 2 * pairs) ('$' :: rest) =
                some ⟨name, position + 2 * pairs, length⟩ :=
              opened?_eq_some_iff.2 ⟨rest, rfl, rfl, hspells⟩
            rw [hopened] at hsome
            cases hsome
          rw [findAfter_run hhere]
          exact .backslashes pairs (.other (fun h => (hplain h).elim) hunopened
            (hagree rest c _ (Nat.lt_succ_self _) hplain))

theorem scanned_escape (hbefore : before ≠ some '\\') (hrest : rest.head? ≠ some '\\')
    (hagree : AgreeBehind rest) :
    Scanned position (List.replicate (2 * pairs + 1) '\\' ++ rest)
      (findAfter 0 before position (List.replicate (2 * pairs + 1) '\\' ++ rest)) := by
  have hrun : List.replicate (2 * pairs) '\\' ++ '\\' :: rest =
      List.replicate (2 * pairs + 1) '\\' ++ rest := by
    rw [List.replicate_succ', List.append_assoc]
    rfl
  have hsingle : ∀ more, '\\' :: rest ≠ '\\' :: '\\' :: more := by
    rintro more heq
    simp [(List.cons.inj heq).2] at hrest
  have hhere : here? before position (List.replicate (2 * pairs + 1) '\\' ++ rest) = none := by
    rw [← hrun, here?_pairs hbefore hsingle]
    rfl
  cases rest with
  | nil =>
      have hscanned : Scanned position (List.replicate (2 * pairs) '\\' ++ ['\\']) [] :=
        .backslashes pairs (.other (fun _ => rfl) (by simp) .nil)
      rw [hrun, List.append_nil] at hscanned
      rw [List.append_nil] at hhere ⊢
      rw [findAfter_run_nil hhere]
      exact hscanned
  | cons c rest =>
      have hplain : c ≠ '\\' := by simpa using hrest
      rw [findAfter_run hhere, ← hrun]
      exact .backslashes pairs (.escape (hagree rest c _ (Nat.lt_succ_self _) hplain))

/-- Where no backslash stands in front, a scan finds what is found by looking at each place. -/
theorem scanned_findAfter (text : List Char) (position : Nat) (hbefore : before ≠ some '\\') :
    Scanned position text (findAfter 0 before position text) := by
  -- From one run of backslashes to the next.
  induction hsize : text.length using Nat.strong_induction_on
    generalizing text position before with
  | _ size ih =>
      subst hsize
      obtain ⟨count, rest, rfl, hrest⟩ := exists_backslashes text
      have hagree : AgreeBehind rest := by
        intro behind last position hlt hlast
        refine ih _ ?_ behind position (by simpa using hlast) rfl
        rw [List.length_append]
        omega
      obtain ⟨pairs, rfl | rfl⟩ := Nat.even_or_odd' count
      · exact scanned_pairs hbefore hrest hagree
      · exact scanned_escape hbefore hrest hagree

/-- The references of a text are those that a scan from its start finds. -/
theorem scanned_iff : Scanned 0 text references ↔ references = findAll text :=
  ⟨fun h => h.unique (scanned_findAfter text 0 nofun), fun h => h ▸ scanned_findAfter text 0 nofun⟩

end Places

end Reference

end Manifest
