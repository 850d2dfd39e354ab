import Manifest.Proofs.Parsing.Moves

/-!
# Going on and going back

From a significant token, going on and going back undo each other, also over the end of the
tokens.  A move runs out of tokens just where none but trivia are on its side.
-/

namespace Manifest

namespace Cursor

open Token (at?)

variable {cursor : Cursor} {tokens : List Token} {token : Token} {index : Int}

/-! ## Going on and back -/

theorem settled_of_index (htoken : cursor.token? = some token) (h : token.isTrivia = false)
    (hpos : 0 < cursor.index) : cursor.Settled := by
  cases cursor with
  | start tokens => cases htoken
  | on behind current ahead =>
      obtain rfl : current = token := Option.some.inj htoken
      refine ⟨?_, h⟩
      rintro rfl
      exact absurd hpos (Int.lt_irrefl 0)
  | past behind => cases htoken

theorem make_next_previous (htoken : cursor.token? = some token) (h : token.isTrivia = false) :
    (cursor.make .next).2.make .previous = (.ok (.reached (some token)), cursor) := by
  have hback := previous_next htoken h
  have hat := token?_eq_at? (rfl : cursor.tokens = cursor.tokens)
  have hwithin := Token.within_of_at? (hat.symm.trans htoken)
  have hless := index_lt_next htoken
  obtain ⟨hfirst, -⟩ | ⟨-, -, -, hreached⟩ := previous_cases cursor.next
  · omega
  · show (Except.ok (Answer.reached cursor.next.previousSignificant?), cursor.next.previous) = _
    rw [hreached, hback, significant?, htoken, Option.filter_some_pos (by rw [h]; rfl)]

theorem make_previous_next (htoken : cursor.token? = some token) (h : token.isTrivia = false)
    (hpos : 0 < cursor.index) :
    (cursor.make .previous).2.make .next = (.ok (.reached (some token)), cursor) := by
  show (Except.ok (Answer.reached cursor.previous.next.token?), cursor.previous.next) = _
  rw [(settled_of_index htoken h hpos).next_previous, htoken]

/-- Going on runs out of tokens just if there are none ahead but trivia. -/
theorem Does.next_none_iff {target : Int} {answer : Except OutsideTokens Answer}
    (h : Does tokens index .next answer target) (hindex : -1 ≤ index) :
    answer = .ok (.reached none) ↔
      ∀ place token, index < place → at? tokens place = some token → token.isTrivia = true := by
  cases h with
  | next hnext hsettles =>
      have honward := hsettles.onward
      constructor
      · intro hanswer place token hless hat
        have hnone : at? tokens target = none := by
          simpa only [Except.ok.injEq, Answer.reached.injEq] using hanswer
        have hend := Token.at?_eq_none_iff.1 hnone
        have hwithin := Token.within_of_at? hat
        exact (Token.triviaAt_iff hat).1 (hsettles.passed place (by omega) (by omega))
      · intro hall
        cases hat : at? tokens target with
        | none => rfl
        | some token =>
            have htrivia := hall target token (by omega) hat
            exact (hsettles.ends ((Token.triviaAt_iff hat).2 htrivia)).elim
  | next_end hend =>
      refine ⟨fun _ place token hless hat => ?_, fun _ => rfl⟩
      have hwithin := Token.within_of_at? hat
      omega

theorem Does.previous_none_iff {target : Int} {answer : Except OutsideTokens Answer}
    (h : Does tokens index .previous answer target) (hindex : index ≤ tokens.length) :
    answer = .ok (.reached none) ↔
      ∀ place token, place < index → at? tokens place = some token → token.isTrivia = true := by
  cases h with
  | previous hprevious hsettles =>
      have hback := hsettles.back
      have hfloor := hsettles.floor
      cases hat : at? tokens target with
      | none =>
          have hend := Token.at?_eq_none_iff.1 hat
          omega
      | some token =>
          have htrivia : (Option.some token).filter (fun token => !token.isTrivia) = none ↔
              token.isTrivia = true := by
            simp
          simp only [Except.ok.injEq, Answer.reached.injEq, htrivia]
          constructor
          · intro hfound place other hless hother
            have hwithin := Token.within_of_at? hother
            -- The first token of all is trivia itself, and no place is before it.
            have htarget := (Token.triviaAt_iff hat).2 hfound
            have hfirst := hsettles.ends.resolve_right fun hend => hend htarget
            by_cases hplace : place = target
            · rw [← hplace] at htarget
              exact (Token.triviaAt_iff hother).1 htarget
            · exact (Token.triviaAt_iff hother).1 (hsettles.passed place (by omega) (by omega))
          · exact fun hall => hall target token (by omega) hat
  | previous_first hfirst =>
      refine ⟨fun _ place token hless hat => ?_, fun _ => rfl⟩
      have hwithin := Token.within_of_at? hat
      omega

/-- What callers of a cursor over some tokens rely on, wherever it is. -/
structure Unreads (tokens : List Token) (cursor : Cursor) : Prop where
  tokens_eq : cursor.tokens = tokens
  /-- There is nothing else to a cursor than its index. -/
  told : ∀ other : Cursor, other.tokens = tokens → other.index = cursor.index → other = cursor
  within : -1 ≤ cursor.index ∧ cursor.index ≤ tokens.length
  current : cursor.token? = at? tokens cursor.index
  accepted : ∀ place : Int, -1 ≤ place ∧ place ≤ tokens.length →
    (cursor.make (.moveTo place)).1 = .ok .done ∧
      (cursor.make (.moveTo place)).2.index = place
  rejected : ∀ place : Int, ¬(-1 ≤ place ∧ place ≤ tokens.length) →
    cursor.make (.moveTo place) = (.error ⟨place⟩, cursor)
  /-- This holds also if the cursor goes past the last token in between. -/
  next_previous : ∀ token, at? tokens cursor.index = some token → token.isTrivia = false →
    (cursor.make .next).2.make .previous = (.ok (.reached (some token)), cursor)
  /-- Only the first token of all cannot be left; what stands before another one is all the same. -/
  previous_next : ∀ token, at? tokens cursor.index = some token → token.isTrivia = false →
    0 < cursor.index →
      (cursor.make .previous).2.make .next = (.ok (.reached (some token)), cursor)
  next_none : (cursor.make .next).1 = .ok (.reached none) ↔
    ∀ place token, cursor.index < place → at? tokens place = some token → token.isTrivia = true
  previous_none : (cursor.make .previous).1 = .ok (.reached none) ↔
    ∀ place token, place < cursor.index → at? tokens place = some token → token.isTrivia = true

theorem unreads (h : cursor.tokens = tokens) : cursor.Unreads tokens := by
  subst h
  have hcurrent := token?_eq_at? (rfl : cursor.tokens = cursor.tokens)
  have hwithin := index_within cursor
  constructor
  case tokens_eq => rfl
  case told => exact fun other htokens hindex => eq_of_index htokens hindex
  case within => exact hwithin
  case current => exact hcurrent
  case accepted =>
    intro place hplace
    obtain ⟨there, -, hthere, -, hindex⟩ | ⟨hout, -⟩ := moveTo_cases cursor place
    · simp only [make, hthere]
      exact ⟨trivial, hindex⟩
    · exact (hout hplace).elim
  case rejected =>
    intro place hplace
    obtain ⟨there, hinside, -⟩ | ⟨-, hout⟩ := moveTo_cases cursor place
    · exact (hplace hinside).elim
    · simp only [make, hout]
  case next_previous =>
    intro token hat h
    exact make_next_previous (hcurrent.trans hat) h
  case previous_next =>
    intro token hat h hpos
    exact make_previous_next (hcurrent.trans hat) h hpos
  case next_none => exact (does_make cursor .next).next_none_iff hwithin.1
  case previous_none => exact (does_make cursor .previous).previous_none_iff hwithin.2

/-- After any moves a cursor is the index that they lead to, and there unreading is exact. -/
theorem makeAll_unreads (tokens : List Token) (moves : List Move) :
    (∀ answers last, Runs tokens (-1) moves answers last ↔
        answers = (makeAll moves (.start tokens)).1 ∧
          last = (makeAll moves (.start tokens)).2.index) ∧
      (makeAll moves (.start tokens)).2.Unreads tokens := by
  obtain ⟨htokens, hruns⟩ := runs_makeAll moves (.start tokens)
  refine ⟨fun answers last => ⟨fun hother => hother.unique hruns, ?_⟩, unreads htokens⟩
  rintro ⟨rfl, rfl⟩
  exact hruns

def twoWords : List Token :=
  (TokenStream.lex false "a /* c */ b # x\n".toList).tokens

theorem makeAll_unreads_twoWords :
    ∃ cursor token, (makeAll [.next, .moveTo 8, .next] (.start twoWords)).2 = cursor ∧
      at? twoWords cursor.index = some token ∧ token.isTrivia = false ∧ cursor.index = 4 ∧
      cursor.make (.moveTo 8) = (.error ⟨8⟩, cursor) ∧
      (cursor.make .next).1 = .ok (.reached none) ∧ (cursor.make .next).2.index = 7 ∧
      (cursor.make .next).2.make .previous = (.ok (.reached (some token)), cursor) ∧
      (cursor.make .previous).2.index = 0 ∧
      (cursor.make .previous).2.make .next = (.ok (.reached (some token)), cursor) := by
  have hunreads := (makeAll_unreads twoWords [.next, .moveTo 8, .next]).2
  have hlength : twoWords.length = 7 := by
    decide +kernel
  have hword : (at? twoWords 4).map Token.isTrivia = some false := by
    decide +kernel
  have hbehind : (at? twoWords 5).all Token.isTrivia = true ∧
      (at? twoWords 6).all Token.isTrivia = true := by
    decide +kernel
  have hindex : (makeAll [.next, .moveTo 8, .next] (.start twoWords)).2.index = 4 ∧
      ((makeAll [.next, .moveTo 8, .next] (.start twoWords)).2.make .next).2.index = 7 ∧
      ((makeAll [.next, .moveTo 8, .next] (.start twoWords)).2.make .previous).2.index = 0 := by
    decide +kernel
  obtain ⟨token, htoken, hloud⟩ := Option.map_eq_some_iff.1 hword
  refine ⟨_, token, rfl, ?_⟩
  generalize (makeAll [.next, .moveTo 8, .next] (.start twoWords)).2 = cursor at *
  obtain ⟨hhere, hnext, hprevious⟩ := hindex
  have hnone : (cursor.make .next).1 = .ok (.reached none) := by
    refine hunreads.next_none.2 fun place other hless hother => ?_
    have hwithin := Token.within_of_at? hother
    obtain rfl | rfl : place = 5 ∨ place = 6 := by omega
    · rw [hother] at hbehind
      exact hbehind.1
    · rw [hother] at hbehind
      exact hbehind.2
  rw [← hhere] at htoken
  exact ⟨htoken, hloud, hhere, hunreads.rejected 8 (by omega), hnone, hnext,
    hunreads.next_previous token htoken hloud, hprevious,
    hunreads.previous_next token htoken hloud (by omega)⟩

end Cursor

end Manifest
