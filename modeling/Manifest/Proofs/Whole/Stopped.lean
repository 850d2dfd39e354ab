import Manifest.Proofs.Whole.Interrupted
import Manifest.Proofs.Whole.Joined

/-!
# Stopped parses

A host stops a parse with the first question that it answers by a flag.  Each token of the top
level is asked about once; the flags are read once more behind the last of them.
-/

namespace Manifest

namespace Interruption

/-- A flag is set when the parse asks for the time `question`. -/
def SetAt (interruption : Interruption) (question : Nat) : Prop :=
  interruption.invalid question = true ∨ interruption.cancelled question = true

/-- The first flag is set when the parse asks for the time `question`. -/
def FirstSetAt (interruption : Interruption) (question : Nat) : Prop :=
  interruption.SetAt question ∧ ∀ earlier < question, ¬ interruption.SetAt earlier

end Interruption

namespace TopLevel

variable {source : List Char} {reportGap : Bool} {interruption : Interruption}
  {read : TopLevel} {count : Nat}

/-- The parse is left before a token, with the answer to its last question. -/
structure StoppedAt (interruption : Interruption) (question : Nat) (last : TopLevel) : Prop where
  unhandled : last.state.token?.isSome = true
  answered : (interruption.invalid question = true ∧ last.validityQuestions = question + 1) ∨
    (interruption.cancelled question = true ∧ last.cancellationQuestions = question + 1)

structure Finished (interruption : Interruption) (first stop : Nat) (last : TopLevel) : Prop where
  token? : last.state.token? = none
  unset : ∀ question, first ≤ question → question < stop → ¬ interruption.SetAt question
  validity : last.validityQuestions = stop
  cancellation : last.cancellationQuestions = stop

theorem le_questions_run (source : List Char) (reportGap : Bool) (count : Nat)
    (read : TopLevel) :
    read.validityQuestions ≤ (run source reportGap count read).validityQuestions := by
  induction count generalizing read with
  | zero => exact Nat.le_refl _
  | succ count ih =>
      cases htoken : read.state.token? with
      | none => rw [run_of_none htoken]
      | some token =>
          have hmore := ih (read.onward source reportGap token)
          rw [(questions_onward source reportGap token read).1] at hmore
          rw [run_succ htoken]
          omega

/-- A parse is stopped with the first question that is answered by a flag, out of as many as a
parse asks that is let go on. -/
theorem stopped_or_finished (interruption : Interruption) (read : TopLevel)
    (hquestions : read.cancellationQuestions = read.validityQuestions)
    (hplaced : read.state.cursor.Placed source) (hcount : read.state.remaining < count) :
    (∃ question, question < (run source reportGap count read).validityQuestions ∧
      (iterate (step source reportGap interruption) count read).StoppedAt interruption question) ∨
    (iterate (step source reportGap interruption) count read).Finished interruption
      read.validityQuestions (run source reportGap count read).validityQuestions := by
  induction count generalizing read with
  | zero => omega
  | succ count ih =>
      cases htoken : read.state.token? with
      | none =>
          rw [run_of_none htoken, iterate, step_of_none htoken]
          exact .inr ⟨htoken, fun question hfirst hstop => by omega, rfl, hquestions⟩
      | some token =>
          obtain ⟨honward, hless⟩ := placed_onward hplaced htoken reportGap
          obtain ⟨hvalidity, hcancellation⟩ := questions_onward source reportGap token read
          have hmore := le_questions_run source reportGap count
            (read.onward source reportGap token)
          rw [run_succ htoken, iterate, step_of_token htoken]
          by_cases hinvalid : interruption.invalid read.validityQuestions = true
          · rw [if_pos hinvalid]
            exact .inl ⟨read.validityQuestions, by omega, by simp [htoken],
              .inl ⟨hinvalid, rfl⟩⟩
          rw [if_neg hinvalid]
          by_cases hcancelled : interruption.cancelled read.cancellationQuestions = true
          · rw [if_pos hcancelled]
            exact .inl ⟨read.cancellationQuestions, by omega,
              by simp [TopLevel.asked, htoken], .inr ⟨hcancelled, rfl⟩⟩
          rw [if_neg hcancelled]
          rcases ih _ (by omega) honward (by omega) with hstopped | hfinished
          · exact .inl hstopped
          · refine .inr { hfinished with unset := fun question hfirst hstop hset => ?_ }
            rcases Nat.eq_or_lt_of_le hfirst with rfl | hlater
            · rcases hset with hset | hset
              · exact hinvalid hset
              · exact hcancelled (hquestions ▸ hset)
            · exact hfinished.unset question (by omega) hstop hset

end TopLevel

namespace Parsed

variable (options : ParseOptions) {interruption : Interruption} (source : List Char)

/-- How many tokens of the top level there are: a parse that is let go on asks before each. -/
def questions : Nat :=
  (read options .never source).validityQuestions

/-- The loop over declarations was left before a token of the top level. -/
def Stopped (interruption : Interruption) : Prop :=
  (read options interruption source).state.token?.isSome = true

theorem stopped_or_finished_read (interruption : Interruption) :
    (∃ question, question < questions options source ∧
      (read options interruption source).StoppedAt interruption question) ∨
    (read options interruption source).Finished interruption 0 (questions options source) :=
  TopLevel.stopped_or_finished interruption
    (TopLevel.first (TokenStream.lex options.multiline source).tokens) rfl
    (TopLevel.placed_ofTokens options.multiline source) (Nat.lt_succ_self _)

theorem isPartial_iff_read :
    (ofText options interruption source).isPartial = true ↔
      interruption.cancelled (read options interruption source).cancellationQuestions = true ∨
        interruption.invalid (read options interruption source).validityQuestions = true :=
  Bool.or_eq_true_iff

theorem stopped_iff_setAt (interruption : Interruption) :
    Stopped options source interruption ↔
      ∃ question < questions options source, interruption.SetAt question := by
  rcases stopped_or_finished_read options source interruption with
    ⟨question, hless, hstopped⟩ | hfinished
  · have hset : interruption.SetAt question := hstopped.answered.imp And.left And.left
    exact iff_of_true hstopped.unhandled ⟨question, hless, hset⟩
  · refine iff_of_false (fun hstopped => ?_) fun ⟨question, hless, hset⟩ =>
      hfinished.unset question (Nat.zero_le _) hless hset
    unfold Stopped at hstopped
    rw [hfinished.token?] at hstopped
    cases hstopped

/-- Flags that stay set are found set at the end, and so is one that is set behind the last
token of the top level. -/
theorem isPartial_iff_setAt (h : interruption.Lasting) :
    (ofText options interruption source).isPartial = true ↔
      Stopped options source interruption ∨
        interruption.SetAt (questions options source) := by
  rw [isPartial_iff_read]
  rcases stopped_or_finished_read options source interruption with
    ⟨question, -, hstopped⟩ | hfinished
  · refine iff_of_true ?_ (Or.inl hstopped.unhandled)
    rcases hstopped.answered with ⟨hset, hasked⟩ | ⟨hset, hasked⟩
    · rw [hasked]
      exact Or.inr (h.1 question _ (Nat.le_succ _) hset)
    · rw [hasked]
      exact Or.inl (h.2 question _ (Nat.le_succ _) hset)
  · have hgoing : ¬ Stopped options source interruption := by
      unfold Stopped
      rw [hfinished.token?]
      exact Bool.false_ne_true
    rw [hfinished.validity, hfinished.cancellation, or_iff_right hgoing]
    exact or_comm

/-- A parse is stopped when a flag is set before one of its tokens of the top level, and is then
partial.  It is partial just when it is stopped, but for a flag that is first set behind the last
of these tokens. -/
theorem isPartial_iff_stopped (h : interruption.Lasting) :
    (Stopped options source interruption ↔
        ∃ question < questions options source, interruption.SetAt question) ∧
      (Stopped options source interruption →
        (ofText options interruption source).isPartial = true) ∧
      (((ofText options interruption source).isPartial = true ↔
          Stopped options source interruption) ↔
        ¬ interruption.FirstSetAt (questions options source)) := by
  have hstopped := stopped_iff_setAt options source interruption
  have hpartial := isPartial_iff_setAt options source h
  refine ⟨hstopped, fun hstop => hpartial.2 (Or.inl hstop), fun hiff hfirst => ?_,
    fun hfirst => ⟨fun hpart => ?_, fun hstop => hpartial.2 (Or.inl hstop)⟩⟩
  · obtain ⟨question, hless, hset⟩ := hstopped.1 (hiff.1 (hpartial.2 (Or.inr hfirst.1)))
    exact hfirst.2 question hless hset
  · rcases hpartial.1 hpart with hstop | hset
    · exact hstop
    · by_contra hgoing
      exact hfirst ⟨hset, fun question hless hearlier =>
        hgoing (hstopped.2 ⟨question, hless, hearlier⟩)⟩

def oneClass : List Char :=
  "class a \x7b\x7d".toList

/-- The host stops the parse before its only class. -/
theorem isPartial_oneClass_before :
    (Interruption.after none (some 0)).Lasting ∧
      Stopped .standard oneClass (.after none (some 0)) ∧
      (ofText .standard (.after none (some 0)) oneClass).isPartial = true := by
  have hlasting := Interruption.lasting_after none (some 0)
  have hstopped : Stopped .standard oneClass (.after none (some 0)) := by
    unfold Stopped
    decide +kernel
  exact ⟨hlasting, hstopped, (isPartial_iff_stopped .standard oneClass hlasting).2.1 hstopped⟩

/-- A flag that is set behind the only class makes a parse partial that came to the end. -/
theorem isPartial_oneClass_behind :
    (Interruption.after none (some 1)).Lasting ∧
      ¬ ((ofText .standard (.after none (some 1)) oneClass).isPartial = true ↔
        Stopped .standard oneClass (.after none (some 1))) := by
  refine ⟨Interruption.lasting_after none (some 1), fun hiff => ?_⟩
  have hpartial : (ofText .standard (.after none (some 1)) oneClass).isPartial = true := by
    decide +kernel
  have hend : (read .standard (.after none (some 1)) oneClass).state.token? = none := by
    decide +kernel
  have hstopped := hiff.1 hpartial
  unfold Stopped at hstopped
  rw [hend] at hstopped
  cases hstopped

end Parsed

end Manifest
