import Manifest.Proofs.Tree.Patterns
import Manifest.Proofs.Tree.References

/-!
# References as matches of a pattern

The pattern of a reference is matched just where a reference is found, and then it has captured the
reference.  So its matches, each the leftmost behind the one before, are the references that are
found by looking at each place.
-/

namespace Manifest

namespace Pattern

def segment : Pattern :=
  .both (.one Reference.isNameStart) (.many (.one Reference.isNamePart))

def joined : Pattern :=
  .both (char ':') (.both (char ':') segment)

def bare : Pattern :=
  .captured .bare (.both segment (.many joined))

def bracedName : Pattern :=
  .both (.one fun c => Reference.isNameStart c || c == ':')
    (.many (.one fun c => Reference.isNamePart c || c == ':'))

def braced : Pattern :=
  .both (char '\x7b') (.both (.captured .braced bracedName) (char '\x7d'))

def reference : Pattern :=
  .captured .reference (.both (char '$') (.either braced bare))

def backslashPair : Pattern :=
  .both (char '\\') (char '\\')

/-- The pattern of a reference: no backslash in front, pairs of them, and a dollar sign with a
name. -/
def interpolation : Pattern :=
  .both (.notBehind '\\') (.both (.many backslashPair) reference)

variable {text rest : List Char} {attempt : Attempt} {c : Char} {count : Nat}

/-! ## Backslashes -/

theorem ways_backslashPair (h : text.drop attempt.position = '\\' :: '\\' :: rest) :
    ways text backslashPair attempt = [attempt.moved 2] := by
  rw [backslashPair, ways_both_char h, ways_char (drop_moved h), Attempt.moved_moved]

theorem ways_backslashPair_none (h : text.drop attempt.position = rest)
    (hnot : ∀ more, rest ≠ '\\' :: '\\' :: more) : ways text backslashPair attempt = [] := by
  by_cases hfirst : rest.head? = some '\\'
  · obtain ⟨rest, rfl⟩ := List.head?_eq_some_iff.1 hfirst
    rw [backslashPair, ways_both_char h]
    refine ways_char_none (drop_moved h) fun hsecond => ?_
    obtain ⟨more, rfl⟩ := List.head?_eq_some_iff.1 hsecond
    exact hnot more rfl
  · exact ways_both_none (ways_char_none h hfirst)

theorem length_ways_backslashPair (attempt : Attempt) :
    (ways text backslashPair attempt).length ≤ 1 := by
  by_cases hpair : ∃ more, text.drop attempt.position = '\\' :: '\\' :: more
  · obtain ⟨more, hmore⟩ := hpair
    rw [ways_backslashPair hmore, List.length_singleton]
  · rw [ways_backslashPair_none rfl fun more hmore => hpair ⟨more, hmore⟩]
    exact Nat.zero_le _

theorem lastRound_backslashPair (h : text.drop attempt.position = rest)
    (hcount : rest.length ≤ count) :
    lastRound (ways text backslashPair) count attempt =
      attempt.moved (2 * Reference.backslashPairs rest) := by
  induction count generalizing attempt rest with
  | zero =>
      obtain rfl := List.eq_nil_of_length_eq_zero (Nat.le_zero.1 hcount)
      rfl
  | succ count ih =>
      unfold Reference.backslashPairs
      split
      · rename_i rest
        have hrest : text.drop (attempt.moved 2).position = rest := drop_moved (drop_moved h)
        simp only [List.length_cons] at hcount
        rw [lastRound_some (by rw [ways_backslashPair h]; rfl), ih hrest (by omega),
          Attempt.moved_moved, Nat.mul_add]
      · rename_i hnot
        exact lastRound_none (by rw [ways_backslashPair_none h hnot]; rfl)

/-! ## Bare names -/

theorem head?_segment (h : text.drop attempt.position = c :: rest)
    (hstart : Reference.isNameStart c = true) :
    (ways text segment attempt).head? =
      some (attempt.moved (1 + (rest.takeWhile Reference.isNamePart).length)) := by
  have hrest := drop_moved h
  rw [segment, ways, ways_one_cons h, if_pos hstart, List.flatMap_singleton, ways, head?_rounds,
    lastRound_one hrest (length_drop_le hrest), Attempt.moved_moved]

theorem ways_segment_none (h : text.drop attempt.position = rest)
    (hnot : ∀ c more, rest = c :: more → Reference.isNameStart c ≠ true) :
    ways text segment attempt = [] := by
  cases rest with
  | nil => exact ways_both_none (ways_one_nil h)
  | cons c rest =>
      exact ways_both_none (by rw [ways_one_cons h, if_neg (hnot c rest rfl)])

theorem head?_joined (h : text.drop attempt.position = ':' :: ':' :: c :: rest)
    (hstart : Reference.isNameStart c = true) :
    (ways text joined attempt).head? =
      some (attempt.moved (3 + (rest.takeWhile Reference.isNamePart).length)) := by
  rw [joined, ways_both_char h, ways_both_char (drop_moved h),
    head?_segment (drop_moved (drop_moved h)) hstart, Attempt.moved_moved, Attempt.moved_moved,
    ← Nat.add_assoc, ← Nat.add_assoc]

theorem ways_joined_none (h : text.drop attempt.position = rest)
    (hnot : ∀ c more, rest = ':' :: ':' :: c :: more → Reference.isNameStart c ≠ true) :
    ways text joined attempt = [] := by
  by_cases hfirst : rest.head? = some ':'
  · obtain ⟨rest, rfl⟩ := List.head?_eq_some_iff.1 hfirst
    rw [joined, ways_both_char h]
    by_cases hsecond : rest.head? = some ':'
    · obtain ⟨rest, rfl⟩ := List.head?_eq_some_iff.1 hsecond
      rw [ways_both_char (drop_moved h)]
      refine ways_segment_none (drop_moved (drop_moved h)) fun c more hrest => ?_
      exact hnot c more (by rw [hrest])
    · exact ways_both_none (ways_char_none (drop_moved h) hsecond)
  · exact ways_both_none (ways_char_none h hfirst)

/-- Behind a run of parts, the further segments are taken as far as they go. -/
theorem lastRound_joined (h : text.drop attempt.position = rest.dropWhile Reference.isNamePart)
    (hcount : (rest.dropWhile Reference.isNamePart).length ≤ count) :
    lastRound (ways text joined) count attempt =
      attempt.moved (Reference.bareSize (rest.dropWhile Reference.isNamePart)) := by
  induction count generalizing attempt rest with
  | zero =>
      rw [List.eq_nil_of_length_eq_zero (Nat.le_zero.1 hcount)]
      rfl
  | succ count ih =>
      have hhead := List.head?_dropWhile_not Reference.isNamePart rest
      generalize rest.dropWhile Reference.isNamePart = behind at h hcount hhead
      unfold Reference.bareSize
      split
      · rename_i c rest
        split
        · rename_i hstart
          have hdrop := drop_moved_run (drop_moved (drop_moved (drop_moved h))) Reference.isNamePart
          have hle := (List.dropWhile_suffix Reference.isNamePart (l := rest)).length_le
          simp only [Attempt.moved_moved] at hdrop
          simp only [List.length_cons] at hcount
          rw [lastRound_some (head?_joined h hstart), ih hdrop (by omega), Attempt.moved_moved,
            Nat.add_assoc, ← Reference.bareSize_run]
        · rename_i hstart
          refine lastRound_none ?_
          rw [ways_joined_none h (by rintro d more ⟨⟩; exact hstart), List.head?_nil]
      · rename_i c rest hnot
        rw [if_neg (Bool.not_eq_true _ ▸ hhead)]
        refine lastRound_none ?_
        rw [ways_joined_none h, List.head?_nil]
        rintro d more heq -
        obtain ⟨rfl, rfl⟩ := List.cons.inj heq
        exact hnot d more rfl rfl
      · exact lastRound_none (by rw [ways_joined_none h (by simp), List.head?_nil])

/-- The preferred bare name is the longest one. -/
theorem head?_bare (h : text.drop attempt.position = rest) :
    (ways text bare attempt).head? = (Reference.bareName? rest).map fun name =>
      (attempt.moved name.length).capture .bare attempt.position := by
  rw [bare, ways, List.head?_map, ways, List.head?_flatMap]
  by_cases hstart : ∃ c more, rest = c :: more ∧ Reference.isNameStart c = true
  · obtain ⟨c, rest, rfl, hstart⟩ := hstart
    obtain ⟨ways', hways⟩ := List.head?_eq_some_iff.1 (head?_segment h hstart)
    have hdrop := drop_moved_run (drop_moved h) Reference.isNamePart
    have hlength := Reference.bareSize_le rest
    rw [Attempt.moved_moved] at hdrop
    rw [hways, List.findSome?_cons, ways, head?_rounds,
      lastRound_joined hdrop (length_drop_le hdrop), Attempt.moved_moved, Nat.add_assoc,
      ← Reference.bareSize_run, Reference.bareName?, if_pos hstart]
    simp [Nat.min_eq_left hlength, Nat.add_comm]
  · rw [ways_segment_none h fun c more hrest hc => hstart ⟨c, more, hrest, hc⟩]
    have hnone : Reference.bareName? rest = none := by
      unfold Reference.bareName?
      split
      · exact if_neg fun hc => hstart ⟨_, _, rfl, hc⟩
      · rfl
    rw [hnone]
    rfl

/-! ## Names in braces -/

/-- The closing brace is no part of a name, so it is matched behind the longest one only. -/
theorem ways_closed (h : text.drop attempt.position = c :: rest) (start : Nat) :
    ((ways text bracedName attempt).flatMap fun after =>
        ways text (char '\x7d') (after.capture .braced start)) =
      if Reference.isNameStart c || c == ':' then
        ways text (char '\x7d') ((attempt.moved
          (1 + (rest.takeWhile fun c => Reference.isNamePart c || c == ':').length)).capture
            .braced start)
      else [] := by
  rw [bracedName, ways, ways_one_cons h]
  split
  · have hrest := drop_moved h
    rw [List.flatMap_singleton, ways, flatMap_rounds (length_ways_one _) ?_,
      lastRound_one hrest (length_drop_le hrest), Attempt.moved_moved]
    intro round hround
    cases hahead : text.drop round.position with
    | nil => exact (hround (ways_one_nil hahead)).elim
    | cons d behind =>
        rw [ways_one_cons hahead] at hround
        have hpart := (ite_ne_right_iff.1 hround).1
        have hcaptured : text.drop (round.capture .braced start).position = d :: behind := hahead
        refine ways_char_none hcaptured ?_
        rintro ⟨⟩
        exact absurd hpart (by decide)
  · rfl

theorem ways_braced (h : text.drop attempt.position = rest) :
    ways text braced attempt = (Reference.bracedName? rest).toList.map fun name =>
      ((attempt.moved (1 + name.length)).capture .braced (attempt.position + 1)).moved 1 := by
  by_cases hopen : rest.head? = some '\x7b'
  · obtain ⟨rest, rfl⟩ := List.head?_eq_some_iff.1 hopen
    have hrest := drop_moved h
    rw [braced, ways_both_char h, ways, ways, List.flatMap_map]
    rcases rest with _ | ⟨c, rest⟩
    · rw [bracedName, ways_both_none (ways_one_nil hrest)]
      rfl
    rw [ways_closed hrest, Reference.bracedName?, Attempt.moved_moved]
    have hbehind : text.drop ((attempt.moved (1 + (1 +
        (rest.takeWhile fun c => Reference.isNamePart c || c == ':').length))).capture .braced
          (attempt.moved 1).position).position =
        rest.dropWhile fun c => Reference.isNamePart c || c == ':' := by
      rw [Attempt.capture_position, ← Attempt.moved_moved, ← Attempt.moved_moved]
      exact drop_moved_run (drop_moved hrest) _
    split
    · split
      · rename_i behind hclosing
        rw [hclosing] at hbehind
        rw [ways_char hbehind]
        simp [Nat.add_comm]
      · rename_i hunclosed
        rw [ways_char_none hbehind]
        · rfl
        · intro hhead
          obtain ⟨behind, hclosing⟩ := List.head?_eq_some_iff.1 hhead
          exact hunclosed behind hclosing
    · split <;> rfl
  · rw [braced, ways_both_none (ways_char_none h hopen), Reference.bracedName?]
    · rfl
    · rintro c behind rfl
      exact hopen rfl

/-! ## References -/

theorem head?_reference (h : text.drop attempt.position = rest)
    (hfresh : attempt.captures.lookup .braced = none) :
    (ways text reference attempt).head?.map (fun found => (found.position, found.reference? text)) =
      (Reference.opened? attempt.position rest).map fun found =>
        (found.position + found.length, some found) := by
  rw [reference, ways, List.head?_map]
  by_cases hopen : rest.head? = some '$'
  · obtain ⟨rest, rfl⟩ := List.head?_eq_some_iff.1 hopen
    have hrest := drop_moved h
    rw [ways_both_char h, ways, ways_braced hrest, List.head?_append, head?_bare hrest,
      Reference.opened?, Reference.at?]
    cases hbraced : Reference.bracedName? rest with
    | some name =>
        obtain ⟨-, behind, rfl⟩ := Reference.bracedName?_eq_some_iff.1 hbraced
        have hname : text.drop (attempt.position + 1 + 1) = name ++ '\x7d' :: behind :=
          drop_moved hrest
        have hend : attempt.position + 1 + (1 + name.length) + 1 =
            attempt.position + (name.length + 3) := by
          omega
        have hlast : attempt.position + 1 + (1 + name.length) =
            attempt.position + 1 + 1 + name.length := by
          omega
        exact congrArg some (Prod.ext hend (Attempt.reference?_eq
          (congrArg (fun stop => some (attempt.position, stop)) hend)
          (congrArg (fun last => some (attempt.position + 1 + 1, last)) hlast) hname))
    | none =>
        cases hbare : Reference.bareName? rest with
        | none => rfl
        | some name =>
            obtain ⟨behind, rfl⟩ := (Reference.bareName?_eq_some_iff.1 hbare).begins
            have hname : text.drop (attempt.position + 1) = name ++ behind := hrest
            have hend : attempt.position + 1 + name.length =
                attempt.position + (name.length + 1) := by
              omega
            have hcaptured : ((attempt.captures.lookup .braced).or
                (some (attempt.position + 1, attempt.position + 1 + name.length))) =
                  some (attempt.position + 1, attempt.position + 1 + name.length) := by
              rw [hfresh, Option.none_or]
            exact congrArg some (Prod.ext hend (Attempt.reference?_eq
              (congrArg (fun stop => some (attempt.position, stop)) hend) hcaptured hname))
  · rw [ways_both_none (ways_char_none h hopen), Reference.opened?]
    · rfl
    · rintro behind rfl
      exact hopen rfl

/-- No reference begins where a round of backslashes is left, so going back over such rounds finds
none. -/
theorem ways_reference_none (h : ways text backslashPair attempt ≠ []) :
    ways text reference attempt = [] := by
  have hopen : (text.drop attempt.position).head? ≠ some '$' := by
    intro hhead
    refine h (ways_backslashPair_none rfl fun more hmore => ?_)
    rw [hmore] at hhead
    cases hhead
  rw [reference, ways, ways_both_none (ways_char_none rfl hopen), List.map_nil]

/-- The pattern is matched at a place just if a reference is found there, and then up to the end of
the reference, which it captures. -/
theorem match?_interpolation {position : Nat} (h : text.drop position = rest) :
    (match? text interpolation position).map
        (fun found => (found.position, found.reference? text)) =
      (Reference.here? (text.take position).getLast? position rest).map fun found =>
        (found.position + found.length, some found) := by
  rw [match?, interpolation, ways, ways, Reference.here?]
  by_cases hbefore : (text.take position).getLast? = some '\\'
  · rw [if_pos hbefore, if_pos hbefore]
    rfl
  · have hdrop : text.drop
        (Attempt.moved ⟨position, []⟩ (2 * Reference.backslashPairs rest)).position =
          rest.drop (2 * Reference.backslashPairs rest) := by
      rw [Attempt.moved_position, ← List.drop_drop, h]
    rw [if_neg hbefore, if_neg hbefore, List.flatMap_singleton, ways, ways,
      flatMap_rounds length_ways_backslashPair fun _ => ways_reference_none,
      lastRound_backslashPair (show text.drop (Attempt.position ⟨position, []⟩) = rest from h)
        (length_drop_le h)]
    exact head?_reference hdrop rfl

theorem exists_finds (left rest : List Char) :
    ∃ founds, Finds (left ++ rest) interpolation left.length founds ∧
      founds.map (Attempt.reference? (left ++ rest)) =
        (Reference.findAfter 0 left.getLast? left.length rest).map some := by
  induction hsize : rest.length using Nat.strong_induction_on generalizing left rest with
  | _ size ih =>
      subst hsize
      have hdrop : (left ++ rest).drop left.length = rest := List.drop_left
      have hmatch := match?_interpolation hdrop
      rw [List.take_left] at hmatch
      cases hhere : Reference.here? left.getLast? left.length rest with
      | none =>
          rw [hhere, Option.map_none, Option.map_eq_none_iff] at hmatch
          cases rest with
          | nil =>
              refine ⟨[], ?_, by rw [Reference.findAfter]; rfl⟩
              rw [List.append_nil] at hmatch ⊢
              exact .done hmatch
          | cons c rest =>
              obtain ⟨founds, hfinds, hfounds⟩ := ih _ (Nat.lt_succ_self _) (left ++ [c]) rest rfl
              rw [List.append_assoc, List.singleton_append, List.length_append] at hfinds hfounds
              refine ⟨founds, .further hmatch (by simp) hfinds, ?_⟩
              rw [Reference.findAfter_of_none hhere, hfounds, List.getLast?_concat]
              rfl
      | some reference =>
          rw [hhere, Option.map_some] at hmatch
          obtain ⟨found, hfound, hpair⟩ := Option.map_eq_some_iff.1 hmatch
          obtain ⟨hstop, hreference⟩ := Prod.mk.inj hpair
          obtain ⟨init, last, behind, rfl, hinit⟩ := Reference.exists_last hhere
          obtain ⟨founds, hfinds, hfounds⟩ :=
            ih _ (by simp; omega) (left ++ init ++ [last]) behind rfl
          have htext : left ++ init ++ [last] ++ behind = left ++ (init ++ last :: behind) := by
            simp
          have hlength :
              (left ++ init ++ [last]).length = reference.position + reference.length := by
            simp [hinit, Nat.add_assoc]
          rw [htext, hlength] at hfinds hfounds
          refine ⟨found :: founds, .found hfound (hstop ▸ hfinds), ?_⟩
          rw [Reference.findAfter_of_some hhere hinit, List.map_cons, List.map_cons, hreference,
            hfounds, List.getLast?_concat]

end Pattern

end Manifest
