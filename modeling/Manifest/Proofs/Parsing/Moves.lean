import Manifest.Parse.Move
import Manifest.Proofs.Parsing.Motion

/-!
# Moves of an index

To its callers a cursor is an index into its tokens, at least one less than that of the first and
at most one more than that of the last.  A move over trivia leads to the nearest significant token
on its side, or past the last token; going back, it stays on the first one.  Every row of moves
does to a cursor what it does to the index.
-/

namespace Manifest

/-! ## Places in a row of tokens -/

namespace Token

def at? (tokens : List Token) (index : Int) : Option Token :=
  if 0 ≤ index then tokens[index.toNat]? else none

def TriviaAt (tokens : List Token) (index : Int) : Prop :=
  ∃ token, at? tokens index = some token ∧ token.isTrivia = true

/-- Going forward off trivia leads from one index to another. -/
structure Settles (tokens : List Token) (index target : Int) : Prop where
  onward : index ≤ target
  passed : ∀ place, index ≤ place → place < target → TriviaAt tokens place
  ends : ¬TriviaAt tokens target

/-- Going back off trivia leads from one index to another, to the first token at most. -/
structure SettlesBack (tokens : List Token) (index target : Int) : Prop where
  back : target ≤ index
  floor : min 0 index ≤ target
  passed : ∀ place, target < place → place ≤ index → TriviaAt tokens place
  ends : target = 0 ∨ ¬TriviaAt tokens target

variable {tokens : List Token} {token : Token} {index target other : Int}

theorem at?_natCast (tokens : List Token) (place : Nat) : at? tokens place = tokens[place]? := by
  unfold at?
  rw [if_pos (by omega), Int.toNat_natCast]

theorem at?_length (behind : List Token) (token : Token) (ahead : List Token) :
    at? (behind.reverse ++ token :: ahead) behind.length = some token := by
  rw [← List.length_reverse, at?_natCast, List.getElem?_append_right (Nat.le_refl _),
    Nat.sub_self]
  rfl

theorem at?_eq_none_iff : at? tokens index = none ↔ index < 0 ∨ tokens.length ≤ index := by
  unfold at?
  split
  · rw [List.getElem?_eq_none_iff]
    omega
  · simp only [true_iff]
    omega

theorem within_of_at? (h : at? tokens index = some token) : 0 ≤ index ∧ index < tokens.length := by
  have hsome : at? tokens index ≠ none := by
    rw [h]
    exact Option.some_ne_none token
  rw [ne_eq, at?_eq_none_iff] at hsome
  omega

theorem triviaAt_iff (h : at? tokens index = some token) :
    TriviaAt tokens index ↔ token.isTrivia = true := by
  constructor
  · rintro ⟨current, hcurrent, htrivia⟩
    obtain rfl : token = current := Option.some.inj (h.symm.trans hcurrent)
    exact htrivia
  · exact fun htrivia => ⟨token, h, htrivia⟩

theorem Settles.stay (h : ¬TriviaAt tokens index) : Settles tokens index index where
  onward := Int.le_refl index
  passed := by
    intro place hfirst hlast
    omega
  ends := h

theorem Settles.step (h : TriviaAt tokens index) (hrest : Settles tokens (index + 1) target) :
    Settles tokens index target where
  onward := by
    have honward := hrest.onward
    omega
  passed := by
    intro place hfirst hlast
    by_cases hplace : place = index
    · rw [hplace]
      exact h
    · exact hrest.passed place (by omega) hlast
  ends := hrest.ends

theorem SettlesBack.stay (h : ¬TriviaAt tokens index ∨ index = 0) :
    SettlesBack tokens index index where
  back := Int.le_refl index
  floor := by omega
  passed := by
    intro place hfirst hlast
    omega
  ends := h.symm

theorem SettlesBack.step (hindex : 0 < index) (h : TriviaAt tokens index)
    (hrest : SettlesBack tokens (index - 1) target) : SettlesBack tokens index target where
  back := by
    have hback := hrest.back
    omega
  floor := by
    have hfloor := hrest.floor
    omega
  passed := by
    intro place hfirst hlast
    by_cases hplace : place = index
    · rw [hplace]
      exact h
    · exact hrest.passed place hfirst (by omega)
  ends := hrest.ends

theorem Settles.not_lt (h : Settles tokens index target) (h' : Settles tokens index other) :
    ¬target < other :=
  fun hless => h.ends (h'.passed target h.onward hless)

theorem Settles.unique (h : Settles tokens index target) (h' : Settles tokens index other) :
    target = other := by
  have hless := h.not_lt h'
  have hgreater := h'.not_lt h
  omega

/-- The place nearer to the index would be trivia, and so the first token of all. -/
theorem SettlesBack.not_lt (h : SettlesBack tokens index target)
    (h' : SettlesBack tokens index other) : ¬target < other := by
  intro hless
  have htrivia := h.passed other hless h'.back
  have hfirst := h'.ends.resolve_right fun hend => hend htrivia
  have hfloor := h.floor
  have hback := h'.back
  omega

theorem SettlesBack.unique (h : SettlesBack tokens index target)
    (h' : SettlesBack tokens index other) : target = other := by
  have hless := h.not_lt h'
  have hgreater := h'.not_lt h
  omega

end Token

namespace Cursor

open Token (at? TriviaAt Settles SettlesBack)

variable {cursor other : Cursor} {tokens : List Token} {token : Token} {index : Int}

/-! ## What moves do to an index -/

/-- What a move does to an index into some tokens, and how it is answered. -/
inductive Does (tokens : List Token) :
    Int → Move → Except OutsideTokens Answer → Int → Prop
  | rewind {index : Int} : Does tokens index .rewind (.ok .done) (-1)
  | moveNext {index : Int} (h : index + 1 < tokens.length) :
      Does tokens index .moveNext (.ok (.moved true)) (index + 1)
  | moveNext_end {index : Int} (h : tokens.length ≤ index + 1) :
      Does tokens index .moveNext (.ok (.moved false)) tokens.length
  | movePrevious {index : Int} (h : 0 < index) :
      Does tokens index .movePrevious (.ok (.moved true)) (index - 1)
  | movePrevious_first {index : Int} (h : index ≤ 0) :
      Does tokens index .movePrevious (.ok (.moved false)) index
  | moveTo {index place : Int} (h : -1 ≤ place ∧ place ≤ tokens.length) :
      Does tokens index (.moveTo place) (.ok .done) place
  | moveTo_outside {index place : Int} (h : ¬(-1 ≤ place ∧ place ≤ tokens.length)) :
      Does tokens index (.moveTo place) (.error ⟨place⟩) index
  | skipTrivia {index target : Int} (h : Settles tokens index target) :
      Does tokens index .skipTrivia (.ok (.reached (at? tokens target))) target
  | next {index target : Int} (hnext : index + 1 < tokens.length)
      (h : Settles tokens (index + 1) target) :
      Does tokens index .next (.ok (.reached (at? tokens target))) target
  | next_end {index : Int} (h : tokens.length ≤ index + 1) :
      Does tokens index .next (.ok (.reached none)) tokens.length
  | backoffTrivia {index target : Int} (h : SettlesBack tokens index target) :
      Does tokens index .backoffTrivia
        (.ok (.reached ((at? tokens target).filter fun token => !token.isTrivia))) target
  | previous {index target : Int} (hprevious : 0 < index)
      (h : SettlesBack tokens (index - 1) target) :
      Does tokens index .previous
        (.ok (.reached ((at? tokens target).filter fun token => !token.isTrivia))) target
  | previous_first {index : Int} (h : index ≤ 0) :
      Does tokens index .previous (.ok (.reached none)) index

inductive Runs (tokens : List Token) :
    Int → List Move → List (Except OutsideTokens Answer) → Int → Prop
  | nil {index : Int} : Runs tokens index [] [] index
  | cons {index after last : Int} {move : Move} {moves : List Move}
      {answer : Except OutsideTokens Answer} {answers : List (Except OutsideTokens Answer)}
      (h : Does tokens index move answer after) (hrest : Runs tokens after moves answers last) :
      Runs tokens index (move :: moves) (answer :: answers) last

theorem Does.unique {after last : Int} {move : Move}
    {answer otherAnswer : Except OutsideTokens Answer} (h : Does tokens index move answer after)
    (h' : Does tokens index move otherAnswer last) : answer = otherAnswer ∧ after = last := by
  cases h with
  | rewind =>
      cases h'
      exact ⟨rfl, rfl⟩
  | moveNext hnext =>
      cases h' with
      | moveNext => exact ⟨rfl, rfl⟩
      | moveNext_end hend => omega
  | moveNext_end hend =>
      cases h' with
      | moveNext hnext => omega
      | moveNext_end => exact ⟨rfl, rfl⟩
  | movePrevious hprevious =>
      cases h' with
      | movePrevious => exact ⟨rfl, rfl⟩
      | movePrevious_first hfirst => omega
  | movePrevious_first hfirst =>
      cases h' with
      | movePrevious hprevious => omega
      | movePrevious_first => exact ⟨rfl, rfl⟩
  | moveTo hplace =>
      cases h' with
      | moveTo => exact ⟨rfl, rfl⟩
      | moveTo_outside hout => exact (hout hplace).elim
  | moveTo_outside hout =>
      cases h' with
      | moveTo hplace => exact (hout hplace).elim
      | moveTo_outside => exact ⟨rfl, rfl⟩
  | skipTrivia hsettles =>
      cases h' with
      | skipTrivia hsettles' =>
          obtain rfl := hsettles.unique hsettles'
          exact ⟨rfl, rfl⟩
  | next hnext hsettles =>
      cases h' with
      | next _ hsettles' =>
          obtain rfl := hsettles.unique hsettles'
          exact ⟨rfl, rfl⟩
      | next_end hend => omega
  | next_end hend =>
      cases h' with
      | next hnext => omega
      | next_end => exact ⟨rfl, rfl⟩
  | backoffTrivia hsettles =>
      cases h' with
      | backoffTrivia hsettles' =>
          obtain rfl := hsettles.unique hsettles'
          exact ⟨rfl, rfl⟩
  | previous hprevious hsettles =>
      cases h' with
      | previous _ hsettles' =>
          obtain rfl := hsettles.unique hsettles'
          exact ⟨rfl, rfl⟩
      | previous_first hfirst => omega
  | previous_first hfirst =>
      cases h' with
      | previous hprevious => omega
      | previous_first => exact ⟨rfl, rfl⟩

theorem Runs.unique {last otherLast : Int} {moves : List Move}
    {answers otherAnswers : List (Except OutsideTokens Answer)}
    (h : Runs tokens index moves answers last)
    (h' : Runs tokens index moves otherAnswers otherLast) :
    answers = otherAnswers ∧ last = otherLast := by
  induction h generalizing otherAnswers otherLast with
  | nil =>
      cases h'
      exact ⟨rfl, rfl⟩
  | cons hdoes _ ih =>
      cases h' with
      | cons hdoes' hrest =>
          obtain ⟨rfl, rfl⟩ := hdoes.unique hdoes'
          obtain ⟨rfl, rfl⟩ := ih hrest
          exact ⟨rfl, rfl⟩

/-! ## The index of a cursor -/

theorem index_within (cursor : Cursor) :
    -1 ≤ cursor.index ∧ cursor.index ≤ cursor.tokens.length := by
  cases cursor with
  | start tokens => exact ⟨Int.le_refl _, show (-1 : Int) ≤ tokens.length by omega⟩
  | on behind token ahead =>
      show (-1 : Int) ≤ behind.length ∧
        (behind.length : Int) ≤ (behind.reverse ++ token :: ahead).length
      simp only [List.length_append, List.length_reverse]
      omega
  | past behind =>
      show (-1 : Int) ≤ behind.length ∧ (behind.length : Int) ≤ behind.reverse.length
      rw [List.length_reverse]
      omega

theorem token?_eq_at? (h : cursor.tokens = tokens) : cursor.token? = at? tokens cursor.index := by
  subst h
  cases cursor with
  | start tokens => rfl
  | on behind token ahead => exact (Token.at?_length behind token ahead).symm
  | past behind =>
      have hpast : (behind.reverse.length : Int) ≤ behind.length :=
        Int.ofNat_le.2 (Nat.le_of_eq List.length_reverse)
      exact (Token.at?_eq_none_iff.2 (.inr hpast)).symm

theorem not_triviaAt_of_none (h : cursor.token? = none) :
    ¬TriviaAt cursor.tokens cursor.index := by
  rintro ⟨token, htoken, -⟩
  rw [← token?_eq_at? rfl, h] at htoken
  cases htoken

theorem eq_of_index (htokens : cursor.tokens = other.tokens) (hindex : cursor.index = other.index) :
    cursor = other := by
  have hthere := moveTo_index htokens.symm
  have hsame := moveTo_index (rfl : other.tokens = other.tokens)
  rw [hindex] at hthere
  exact Except.ok.inj (hthere.symm.trans hsame)

/-! ## Single moves -/

theorem settles_settle (behind tokens : List Token) :
    Settles (behind.reverse ++ tokens) behind.length (settle behind tokens).index := by
  induction tokens generalizing behind with
  | nil =>
      rw [List.append_nil]
      exact .stay (not_triviaAt_of_none (rfl : (past behind).token? = none))
  | cons token tokens ih =>
      have hat := Token.at?_length behind token tokens
      unfold settle
      split
      · rename_i htrivia
        have hrest := ih (token :: behind)
        rw [List.reverse_cons, List.append_assoc] at hrest
        exact .step ((Token.triviaAt_iff hat).2 htrivia) hrest
      · rename_i hloud
        exact .stay (mt (Token.triviaAt_iff hat).1 hloud)

theorem settlesBack_settleBack (behind : List Token) (token : Token) (ahead : List Token) :
    SettlesBack (behind.reverse ++ token :: ahead) behind.length
      (settleBack behind token ahead).index := by
  induction behind generalizing token ahead with
  | nil => exact .stay (.inr rfl)
  | cons before behind ih =>
      have hat := Token.at?_length (before :: behind) token ahead
      unfold settleBack
      split
      · rename_i htrivia
        have hrest := ih before (token :: ahead)
        rw [List.reverse_cons, List.append_assoc] at hat ⊢
        refine .step (by rw [List.length_cons]; omega) ((Token.triviaAt_iff hat).2 htrivia) ?_
        rw [List.length_cons, Int.natCast_add, Int.natCast_one, Int.add_sub_cancel]
        exact hrest
      · rename_i hloud
        exact .stay (.inl (mt (Token.triviaAt_iff hat).1 hloud))

theorem tokens_settleBack (behind : List Token) (token : Token) (ahead : List Token) :
    (settleBack behind token ahead).tokens = behind.reverse ++ token :: ahead := by
  induction behind generalizing token ahead with
  | nil => rfl
  | cons before behind ih =>
      unfold settleBack
      split
      · rw [ih, List.reverse_cons, List.append_assoc]
        rfl
      · rfl

theorem index_past_reverse (tokens : List Token) :
    (past tokens.reverse).index = tokens.length := by
  rw [index, List.length_reverse]

theorem moveNext_end (h : cursor.tokens.length ≤ cursor.index + 1) :
    cursor.moveNext = .past cursor.tokens.reverse ∧ cursor.next = .past cursor.tokens.reverse := by
  cases cursor with
  | start tokens =>
      have hlength : (tokens.length : Int) ≤ -1 + 1 := h
      obtain rfl : tokens = [] := List.length_eq_zero_iff.1 (by omega)
      exact ⟨rfl, rfl⟩
  | on behind token ahead =>
      have hlength : ((behind.reverse ++ token :: ahead).length : Int) ≤ behind.length + 1 := h
      rw [List.length_append, List.length_reverse, List.length_cons] at hlength
      obtain rfl : ahead = [] := List.length_eq_zero_iff.1 (by omega)
      have htokens : (behind.reverse ++ [token]).reverse = token :: behind := by simp
      exact ⟨congrArg past htokens.symm, congrArg past htokens.symm⟩
  | past behind =>
      have htokens : behind.reverse.reverse = behind := List.reverse_reverse behind
      exact ⟨congrArg past htokens.symm, congrArg past htokens.symm⟩

theorem index_moveNext (h : cursor.index + 1 < cursor.tokens.length) :
    cursor.moveNext.index = cursor.index + 1 := by
  cases cursor with
  | start tokens =>
      cases tokens with
      | nil => exact absurd h (by decide)
      | cons token tokens => rfl
  | on behind token ahead =>
      cases ahead with
      | nil =>
          have hlength : (behind.length : Int) + 1 < (behind.reverse ++ [token]).length := h
          rw [List.length_append, List.length_reverse, List.length_singleton] at hlength
          omega
      | cons following ahead => rfl
  | past behind =>
      have hlength : (behind.length : Int) + 1 < behind.reverse.length := h
      rw [List.length_reverse] at hlength
      omega

theorem settles_next (h : cursor.index + 1 < cursor.tokens.length) :
    Settles cursor.tokens (cursor.index + 1) cursor.next.index := by
  cases cursor with
  | start tokens => exact settles_settle [] tokens
  | on behind token ahead =>
      have hsettles := settles_settle (token :: behind) ahead
      rw [List.reverse_cons, List.append_assoc] at hsettles
      exact hsettles
  | past behind =>
      have hlength : (behind.length : Int) + 1 < behind.reverse.length := h
      rw [List.length_reverse] at hlength
      omega

theorem settles_skipTrivia (cursor : Cursor) :
    Settles cursor.tokens cursor.index cursor.skipTrivia.index := by
  cases cursor with
  | start tokens => exact .stay (not_triviaAt_of_none rfl)
  | on behind token ahead => exact settles_settle behind (token :: ahead)
  | past behind => exact .stay (not_triviaAt_of_none rfl)

theorem settlesBack_backoffTrivia (cursor : Cursor) :
    SettlesBack cursor.tokens cursor.index cursor.backoffTrivia.index := by
  cases cursor with
  | start tokens => exact .stay (.inl (not_triviaAt_of_none rfl))
  | on behind token ahead => exact settlesBack_settleBack behind token ahead
  | past behind => exact .stay (.inl (not_triviaAt_of_none rfl))

theorem tokens_backoffTrivia (cursor : Cursor) : cursor.backoffTrivia.tokens = cursor.tokens := by
  cases cursor with
  | start tokens => rfl
  | on behind token ahead => exact tokens_settleBack behind token ahead
  | past behind => rfl

theorem movePrevious?_cases (cursor : Cursor) :
    (cursor.index ≤ 0 ∧ cursor.movePrevious? = none) ∨
      ∃ before, 0 < cursor.index ∧ cursor.movePrevious? = some before ∧
        before.tokens = cursor.tokens ∧ before.index = cursor.index - 1 := by
  have hless : ∀ behind : List Token, ∀ token : Token,
      (0 : Int) < (token :: behind).length ∧
        (behind.length : Int) = (token :: behind).length - 1 := by
    intro behind token
    rw [List.length_cons]
    omega
  cases cursor with
  | start tokens => exact .inl ⟨show (-1 : Int) ≤ 0 by decide, rfl⟩
  | on behind token ahead =>
      cases behind with
      | nil => exact .inl ⟨Int.le_refl _, rfl⟩
      | cons before behind =>
          obtain ⟨hpos, hindex⟩ := hless behind before
          refine .inr ⟨_, hpos, rfl, ?_, hindex⟩
          show behind.reverse ++ before :: token :: ahead = _
          rw [tokens, List.reverse_cons, List.append_assoc]
          rfl
  | past behind =>
      cases behind with
      | nil => exact .inl ⟨Int.le_refl _, rfl⟩
      | cons before behind =>
          obtain ⟨hpos, hindex⟩ := hless behind before
          exact .inr ⟨_, hpos, rfl, List.reverse_cons.symm, hindex⟩

theorem index_seek (behind tokens : List Token) (place : Nat) (h : place ≤ tokens.length) :
    (seek behind tokens place).index = behind.length + place := by
  induction tokens generalizing behind place with
  | nil =>
      obtain rfl : place = 0 := Nat.le_zero.1 h
      rfl
  | cons token tokens ih =>
      cases place with
      | zero => rfl
      | succ place =>
          have hplace := ih (token :: behind) place (Nat.le_of_succ_le_succ h)
          rw [List.length_cons] at hplace
          refine hplace.trans ?_
          omega

theorem tokens_seek (behind tokens : List Token) (place : Nat) :
    (seek behind tokens place).tokens = behind.reverse ++ tokens := by
  induction tokens generalizing behind place with
  | nil => exact (List.append_nil _).symm
  | cons token tokens ih =>
      cases place with
      | zero => rfl
      | succ place =>
          refine (ih (token :: behind) place).trans ?_
          rw [List.reverse_cons, List.append_assoc]
          rfl

/-- A move to an index leads there, or there is no such place. -/
theorem moveTo_cases (cursor : Cursor) (place : Int) :
    (∃ there, (-1 ≤ place ∧ place ≤ cursor.tokens.length) ∧ cursor.moveTo place = .ok there ∧
        there.tokens = cursor.tokens ∧ there.index = place) ∨
      ¬(-1 ≤ place ∧ place ≤ cursor.tokens.length) ∧ cursor.moveTo place = .error ⟨place⟩ := by
  unfold moveTo
  split
  · rename_i hstart
    exact .inl ⟨_, by omega, rfl, rfl, hstart.symm⟩
  · rename_i hstart
    split
    · rename_i hplace
      have hindex := index_seek [] cursor.tokens place.toNat (by omega)
      refine .inl ⟨_, by omega, rfl, tokens_seek [] cursor.tokens place.toNat, hindex.trans ?_⟩
      rw [List.length_nil]
      omega
    · rename_i hplace
      exact .inr ⟨by omega, rfl⟩

theorem previous_cases (cursor : Cursor) :
    (cursor.index ≤ 0 ∧ cursor.previous = cursor ∧ cursor.previousSignificant? = none) ∨
      0 < cursor.index ∧ SettlesBack cursor.tokens (cursor.index - 1) cursor.previous.index ∧
        cursor.previous.tokens = cursor.tokens ∧
        cursor.previousSignificant? = cursor.previous.significant? := by
  obtain ⟨hfirst, hnone⟩ | ⟨before, hpos, hbefore, htokens, hindex⟩ := movePrevious?_cases cursor
  · refine .inl ⟨hfirst, ?_, ?_⟩
    · rw [previous, hnone]
    · rw [previousSignificant?, hnone]
      rfl
  · have hprevious : cursor.previous = before.backoffTrivia := by rw [previous, hbefore]
    refine .inr ⟨hpos, ?_, ?_, ?_⟩
    · rw [hprevious, ← htokens, ← hindex]
      exact settlesBack_backoffTrivia before
    · rw [hprevious, tokens_backoffTrivia, htokens]
    · rw [previousSignificant?, hbefore, hprevious]
      rfl

theorem significant?_eq_at? (h : cursor.tokens = tokens) :
    cursor.significant? = (at? tokens cursor.index).filter fun token => !token.isTrivia := by
  rw [significant?, token?_eq_at? h]

/-! ## Every move follows the index -/

theorem does_moveNext (cursor : Cursor) :
    Does cursor.tokens cursor.index .moveNext (.ok (.moved cursor.moveNext.token?.isSome))
      cursor.moveNext.index := by
  by_cases hnext : cursor.index + 1 < cursor.tokens.length
  · have hwithin := index_within cursor
    have hindex := index_moveNext hnext
    have hsome : cursor.moveNext.token?.isSome = true := by
      rw [Option.isSome_iff_ne_none, token?_eq_at? (leadsTo_moveNext cursor).tokens_eq, ne_eq,
        Token.at?_eq_none_iff]
      omega
    rw [hsome, hindex]
    exact .moveNext hnext
  · have hend : cursor.tokens.length ≤ cursor.index + 1 := by omega
    have hindex : cursor.moveNext.index = cursor.tokens.length := by
      rw [(moveNext_end hend).1, index_past_reverse]
    have hnone : cursor.moveNext.token? = none := by
      rw [(moveNext_end hend).1]
      rfl
    rw [hindex, hnone]
    exact .moveNext_end hend

theorem does_movePrevious (cursor : Cursor) :
    Does cursor.tokens cursor.index .movePrevious (cursor.make .movePrevious).1
      (cursor.make .movePrevious).2.index := by
  obtain ⟨hfirst, hnone⟩ | ⟨before, hpos, hbefore, -, hindex⟩ := movePrevious?_cases cursor
  · simp only [make, hnone]
    exact .movePrevious_first hfirst
  · simp only [make, hbefore, hindex]
    exact .movePrevious hpos

theorem does_moveTo (cursor : Cursor) (place : Int) :
    Does cursor.tokens cursor.index (.moveTo place) (cursor.make (.moveTo place)).1
      (cursor.make (.moveTo place)).2.index := by
  obtain ⟨there, hplace, hthere, -, hindex⟩ | ⟨hplace, hout⟩ := moveTo_cases cursor place
  · simp only [make, hthere, hindex]
    exact .moveTo hplace
  · simp only [make, hout]
    exact .moveTo_outside hplace

theorem does_skipTrivia (cursor : Cursor) :
    Does cursor.tokens cursor.index .skipTrivia (.ok (.reached cursor.skipTrivia.token?))
      cursor.skipTrivia.index := by
  rw [token?_eq_at? (leadsTo_skipTrivia cursor).tokens_eq]
  exact .skipTrivia (settles_skipTrivia cursor)

theorem does_next (cursor : Cursor) :
    Does cursor.tokens cursor.index .next (.ok (.reached cursor.next.token?))
      cursor.next.index := by
  by_cases hnext : cursor.index + 1 < cursor.tokens.length
  · rw [token?_eq_at? (leadsTo_next cursor).tokens_eq]
    exact .next hnext (settles_next hnext)
  · have hend : cursor.tokens.length ≤ cursor.index + 1 := by omega
    have hindex : cursor.next.index = cursor.tokens.length := by
      rw [(moveNext_end hend).2, index_past_reverse]
    have hnone : cursor.next.token? = none := by
      rw [(moveNext_end hend).2]
      rfl
    rw [hindex, hnone]
    exact .next_end hend

theorem does_backoffTrivia (cursor : Cursor) :
    Does cursor.tokens cursor.index .backoffTrivia
      (.ok (.reached cursor.backoffTrivia.significant?)) cursor.backoffTrivia.index := by
  rw [significant?_eq_at? (tokens_backoffTrivia cursor)]
  exact .backoffTrivia (settlesBack_backoffTrivia cursor)

theorem does_previous (cursor : Cursor) :
    Does cursor.tokens cursor.index .previous (.ok (.reached cursor.previousSignificant?))
      cursor.previous.index := by
  obtain ⟨hfirst, hsame, hnone⟩ | ⟨hpos, hsettles, htokens, hreached⟩ := previous_cases cursor
  · rw [hnone, hsame]
    exact .previous_first hfirst
  · rw [hreached, significant?_eq_at? htokens]
    exact .previous hpos hsettles

/-- Every move does to a cursor what it does to its index. -/
theorem does_make (cursor : Cursor) : ∀ move,
    Does cursor.tokens cursor.index move (cursor.make move).1 (cursor.make move).2.index
  | .rewind => .rewind
  | .moveNext => does_moveNext cursor
  | .movePrevious => does_movePrevious cursor
  | .moveTo place => does_moveTo cursor place
  | .skipTrivia => does_skipTrivia cursor
  | .next => does_next cursor
  | .backoffTrivia => does_backoffTrivia cursor
  | .previous => does_previous cursor

theorem tokens_make (cursor : Cursor) (move : Move) :
    (cursor.make move).2.tokens = cursor.tokens := by
  cases move with
  | rewind => rfl
  | moveNext => exact (leadsTo_moveNext cursor).tokens_eq
  | movePrevious =>
      obtain ⟨-, hnone⟩ | ⟨before, -, hbefore, htokens, -⟩ := movePrevious?_cases cursor
      · simp only [make, hnone]
      · simp only [make, hbefore, htokens]
  | moveTo place =>
      obtain ⟨there, -, hthere, htokens, -⟩ | ⟨-, hout⟩ := moveTo_cases cursor place
      · simp only [make, hthere, htokens]
      · simp only [make, hout]
  | skipTrivia => exact (leadsTo_skipTrivia cursor).tokens_eq
  | next => exact (leadsTo_next cursor).tokens_eq
  | backoffTrivia => exact tokens_backoffTrivia cursor
  | previous =>
      obtain ⟨-, hsame, -⟩ | ⟨-, -, htokens, -⟩ := previous_cases cursor
      · exact congrArg tokens hsame
      · exact htokens

/-! ## Rows of moves -/

theorem runs_makeAll (moves : List Move) (cursor : Cursor) :
    (makeAll moves cursor).2.tokens = cursor.tokens ∧
      Runs cursor.tokens cursor.index moves (makeAll moves cursor).1
        (makeAll moves cursor).2.index := by
  -- A refused move is a step too, so the row goes on behind it.
  induction moves generalizing cursor with
  | nil => exact ⟨rfl, .nil⟩
  | cons move moves ih =>
      have hdoes := does_make cursor move
      obtain ⟨htokens, hrest⟩ := ih (cursor.make move).2
      rw [tokens_make] at htokens hrest
      exact ⟨htokens, .cons hdoes hrest⟩

end Cursor

end Manifest
