import Manifest.Tree.Interpolation

/-!
# Patterns

A pattern is matched by trying its ways one after the other, and going back where one fails.
Repetition takes as many rounds as there are; where what follows cannot begin a round, or where
nothing follows, going back is never needed.
-/

namespace Manifest

inductive Capture where
  | reference
  | braced
  | bare
  deriving DecidableEq

inductive Pattern where
  /-- One character that passes a test. -/
  | one (test : Char → Bool)
  /-- No character, where the one in front is not `c`. -/
  | notBehind (c : Char)
  | both (first second : Pattern)
  | either (first second : Pattern)
  /-- The pattern over and over, as often as can be. -/
  | many (part : Pattern)
  | captured (capture : Capture) (part : Pattern)

/-- How far a try has come in a text, and the stretches that it has captured. -/
structure Attempt where
  position : Nat
  captures : List (Capture × Nat × Nat)

namespace Attempt

def moved (attempt : Attempt) (count : Nat) : Attempt :=
  { attempt with position := attempt.position + count }

def capture (attempt : Attempt) (capture : Capture) (start : Nat) : Attempt :=
  { attempt with captures := (capture, start, attempt.position) :: attempt.captures }

/-- The reference that a match has captured; its name is the one in braces, or else the bare one. -/
def reference? (text : List Char) (attempt : Attempt) : Option Reference := do
  let (start, stop) ← attempt.captures.lookup .reference
  let (first, last) ← (attempt.captures.lookup .braced).or (attempt.captures.lookup .bare)
  return ⟨(text.drop first).take (last - first), start, stop - start⟩

@[simp]
theorem moved_position (attempt : Attempt) (count : Nat) :
    (attempt.moved count).position = attempt.position + count :=
  rfl

@[simp]
theorem capture_position (attempt : Attempt) (name : Capture) (start : Nat) :
    (attempt.capture name start).position = attempt.position :=
  rfl

theorem moved_moved (attempt : Attempt) (count more : Nat) :
    (attempt.moved count).moved more = attempt.moved (count + more) := by
  simp [moved, Nat.add_assoc]

theorem reference?_eq {text name behind : List Char} {attempt : Attempt} {start length first : Nat}
    (hreference : attempt.captures.lookup .reference = some (start, start + length))
    (hcaptured : (attempt.captures.lookup .braced).or (attempt.captures.lookup .bare) =
      some (first, first + name.length)) (hname : text.drop first = name ++ behind) :
    attempt.reference? text = some ⟨name, start, length⟩ := by
  simp [reference?, hreference, hcaptured, hname]

end Attempt

namespace Pattern

/-- Rounds as long as there are some, and then the ways that take fewer. -/
def rounds (round : Attempt → List Attempt) : Nat → Attempt → List Attempt
  | 0, attempt => [attempt]
  | count + 1, attempt => (round attempt).flatMap (rounds round count) ++ [attempt]

/-- The ways to match a pattern in a text from an attempt on, the preferred one first.  Each round of
a repetition takes a character at least, so there are not more rounds than characters. -/
def ways (text : List Char) : Pattern → Attempt → List Attempt
  | .one test, attempt =>
      if (text[attempt.position]?).any test then [attempt.moved 1] else []
  | .notBehind c, attempt =>
      if (text.take attempt.position).getLast? = some c then [] else [attempt]
  | .both first second, attempt => (ways text first attempt).flatMap (ways text second)
  | .either first second, attempt => ways text first attempt ++ ways text second attempt
  | .many part, attempt => rounds (ways text part) text.length attempt
  | .captured capture part, attempt =>
      (ways text part attempt).map fun after => after.capture capture attempt.position

def match? (text : List Char) (pattern : Pattern) (position : Nat) : Option Attempt :=
  (ways text pattern ⟨position, []⟩).head?

/-- The matches of a pattern from a position on, each the leftmost behind the one before. -/
inductive Finds (text : List Char) (pattern : Pattern) : Nat → List Attempt → Prop
  | found {position : Nat} {attempt : Attempt} {more : List Attempt} :
      match? text pattern position = some attempt → Finds text pattern attempt.position more →
        Finds text pattern position (attempt :: more)
  | further {position : Nat} {attempts : List Attempt} :
      match? text pattern position = none → position < text.length →
        Finds text pattern (position + 1) attempts → Finds text pattern position attempts
  | done : match? text pattern text.length = none → Finds text pattern text.length []

def char (c : Char) : Pattern :=
  .one (· == c)

variable {text rest : List Char} {attempt : Attempt} {c : Char} {count : Nat}
  {round follow : Attempt → List Attempt}

/-! ## Rounds -/

def lastRound (round : Attempt → List Attempt) : Nat → Attempt → Attempt
  | 0, attempt => attempt
  | count + 1, attempt =>
      match (round attempt).head? with
      | some next => lastRound round count next
      | none => attempt

theorem lastRound_some {next : Attempt} (h : (round attempt).head? = some next) :
    lastRound round (count + 1) attempt = lastRound round count next := by
  rw [lastRound, h]

theorem lastRound_none (h : (round attempt).head? = none) :
    lastRound round count attempt = attempt := by
  cases count with
  | zero => rfl
  | succ count => rw [lastRound, h]

/-- The preferred way is to take all rounds. -/
theorem head?_rounds (round : Attempt → List Attempt) (count : Nat) (attempt : Attempt) :
    (rounds round count attempt).head? = some (lastRound round count attempt) := by
  induction count generalizing attempt with
  | zero => rfl
  | succ count ih =>
      rw [rounds, lastRound]
      cases hround : round attempt with
      | nil => rfl
      | cons next more =>
          rw [List.flatMap_cons, List.append_assoc, List.head?_append, ih]
          rfl

/-- Where what follows fails as long as a round is left, going back finds nothing. -/
theorem flatMap_rounds (hround : ∀ attempt, (round attempt).length ≤ 1)
    (hfollow : ∀ attempt, round attempt ≠ [] → follow attempt = []) (count : Nat)
    (attempt : Attempt) :
    (rounds round count attempt).flatMap follow = follow (lastRound round count attempt) := by
  induction count generalizing attempt with
  | zero => simp [rounds, lastRound]
  | succ count ih =>
      have hone := hround attempt
      have hnothing := hfollow attempt
      rw [rounds, lastRound]
      cases hways : round attempt with
      | nil => simp
      | cons next more =>
          rw [hways] at hone hnothing
          obtain rfl : more = [] := by simpa using hone
          simp [ih, hnothing]

/-! ## Characters -/

theorem length_drop_le (h : text.drop count = rest) : rest.length ≤ text.length := by
  rw [← h, List.length_drop]
  exact Nat.sub_le _ _

theorem drop_moved (h : text.drop attempt.position = c :: rest) :
    text.drop (attempt.moved 1).position = rest := by
  rw [Attempt.moved_position, ← List.drop_drop, h]
  rfl

theorem drop_run (test : Char → Bool) (rest : List Char) :
    rest.drop (rest.takeWhile test).length = rest.dropWhile test := by
  calc
    rest.drop (rest.takeWhile test).length =
        (rest.takeWhile test ++ rest.dropWhile test).drop (rest.takeWhile test).length := by
      rw [List.takeWhile_append_dropWhile]
    _ = rest.dropWhile test := List.drop_left

theorem drop_moved_run (h : text.drop attempt.position = rest) (test : Char → Bool) :
    text.drop (attempt.moved (rest.takeWhile test).length).position = rest.dropWhile test := by
  rw [Attempt.moved_position, ← List.drop_drop, h, drop_run]

theorem ways_both_none {first second : Pattern} (h : ways text first attempt = []) :
    ways text (.both first second) attempt = [] := by
  rw [ways, h]
  rfl

theorem ways_one_cons {test : Char → Bool} (h : text.drop attempt.position = c :: rest) :
    ways text (.one test) attempt = if test c then [attempt.moved 1] else [] := by
  rw [ways, ← List.head?_drop, h]
  rfl

theorem ways_one_nil {test : Char → Bool} (h : text.drop attempt.position = []) :
    ways text (.one test) attempt = [] := by
  rw [ways, ← List.head?_drop, h]
  rfl

theorem length_ways_one (test : Char → Bool) (attempt : Attempt) :
    (ways text (.one test) attempt).length ≤ 1 := by
  rw [ways]
  split <;> simp

theorem ways_char (h : text.drop attempt.position = c :: rest) :
    ways text (char c) attempt = [attempt.moved 1] := by
  rw [char, ways_one_cons h, if_pos (beq_self_eq_true c)]

theorem ways_char_none (h : text.drop attempt.position = rest) (hnot : rest.head? ≠ some c) :
    ways text (char c) attempt = [] := by
  cases rest with
  | nil => exact ways_one_nil h
  | cons d rest =>
      rw [char, ways_one_cons h, if_neg]
      simpa using hnot

theorem ways_both_char {second : Pattern} (h : text.drop attempt.position = c :: rest) :
    ways text (.both (char c) second) attempt = ways text second (attempt.moved 1) := by
  rw [ways, ways_char h, List.flatMap_singleton]

/-- Rounds of one character take the run of characters that pass the test. -/
theorem lastRound_one {test : Char → Bool} (h : text.drop attempt.position = rest)
    (hcount : rest.length ≤ count) :
    lastRound (ways text (.one test)) count attempt =
      attempt.moved (rest.takeWhile test).length := by
  induction rest generalizing attempt count with
  | nil => exact lastRound_none (by rw [ways_one_nil h]; rfl)
  | cons c rest ih =>
      by_cases hc : test c = true
      · cases count with
        | zero => simp at hcount
        | succ count =>
            have hnext : (ways text (.one test) attempt).head? = some (attempt.moved 1) := by
              rw [ways_one_cons h, if_pos hc]
              rfl
            rw [lastRound_some hnext, ih (drop_moved h) (Nat.le_of_succ_le_succ hcount),
              List.takeWhile_cons_of_pos hc, Attempt.moved_moved, List.length_cons, Nat.add_comm]
      · rw [List.takeWhile_cons_of_neg hc]
        exact lastRound_none (by rw [ways_one_cons h, if_neg hc]; rfl)

/-! ## Matches -/

theorem Finds.unique {pattern : Pattern} {position : Nat} {attempts others : List Attempt}
    (h : Finds text pattern position attempts) (h' : Finds text pattern position others) :
    attempts = others := by
  induction h generalizing others with
  | found hmatch _ ih =>
      cases h' with
      | found hmatch' hmore =>
          obtain rfl := Option.some.inj (hmatch.symm.trans hmatch')
          rw [ih hmore]
      | further hnone _ _ => cases hmatch.symm.trans hnone
      | done hnone => cases hmatch.symm.trans hnone
  | further hnone hlt _ ih =>
      cases h' with
      | found hmatch _ => cases hmatch.symm.trans hnone
      | further _ _ hmore => exact ih hmore
      | done _ => exact absurd hlt (Nat.lt_irrefl _)
  | done hnone =>
      cases h' with
      | found hmatch _ => cases hmatch.symm.trans hnone
      | further _ hlt _ => exact absurd hlt (Nat.lt_irrefl _)
      | done _ => rfl

end Pattern

end Manifest
