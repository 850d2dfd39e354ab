import Manifest.Parse.State
import Manifest.Proofs.Lexing.Tiling
import Manifest.Proofs.Tree.Spans

/-!
# Motion of a parse

Where a cursor stands in the text follows from the tokens ahead of it, which tile the
rest of the text.  Moving forward leads on in the text; going back from a significant
token is undone by going on.
-/

namespace Manifest

namespace Cursor

def Begun : Cursor → Prop
  | .start _ => False
  | _ => True

/-- Moving forward over some tokens leads from one place to the other. -/
structure LeadsTo (before after : Cursor) : Prop where
  passes : ∃ passed, before.ahead = passed ++ after.ahead ∧
    after.behind = passed.reverse ++ before.behind
  begun : before.Begun → after.Begun

/-- On a significant token that is not the first of all, or past the last token. -/
def Settled : Cursor → Prop
  | .start _ => False
  | .on behind token _ => behind ≠ [] ∧ token.isTrivia = false
  | .past _ => True

/-- The cursor has begun, and the tokens around it tile the text and cover it. -/
structure Placed (source : List Char) (cursor : Cursor) : Prop where
  begun : cursor.Begun
  tiles : Token.Tiles 0 cursor.tokens source.length
  covers : ∀ token ∈ cursor.tokens, token.Covers source

variable {source : List Char} {cursor first second third : Cursor} {token : Token}

/-! ## Moving forward -/

theorem LeadsTo.refl (cursor : Cursor) : cursor.LeadsTo cursor :=
  ⟨⟨[], rfl, rfl⟩, id⟩

theorem LeadsTo.trans (h : first.LeadsTo second) (h' : second.LeadsTo third) :
    first.LeadsTo third := by
  rcases h with ⟨⟨passed, hahead, hbehind⟩, hbegun⟩
  rcases h' with ⟨⟨passed', hahead', hbehind'⟩, hbegun'⟩
  exact ⟨⟨passed ++ passed', by simp [hahead, hahead'], by simp [hbehind, hbehind']⟩,
    hbegun' ∘ hbegun⟩

theorem LeadsTo.remaining_le (h : first.LeadsTo second) : second.remaining ≤ first.remaining := by
  obtain ⟨passed, hahead, -⟩ := h.passes
  simp [remaining, hahead]

theorem tokens_eq (cursor : Cursor) : cursor.tokens = cursor.behind.reverse ++ cursor.ahead := by
  cases cursor with
  | start tokens => rfl
  | on behind token ahead => rfl
  | past behind => exact (List.append_nil _).symm

theorem LeadsTo.tokens_eq (h : first.LeadsTo second) : second.tokens = first.tokens := by
  obtain ⟨passed, hahead, hbehind⟩ := h.passes
  rw [Cursor.tokens_eq, Cursor.tokens_eq, hahead, hbehind]
  simp

@[simp]
theorem ahead_enter (behind tokens : List Token) : (enter behind tokens).ahead = tokens := by
  cases tokens <;> rfl

@[simp]
theorem behind_enter (behind tokens : List Token) : (enter behind tokens).behind = behind := by
  cases tokens <;> rfl

theorem settle_passes (behind tokens : List Token) :
    ∃ passed, tokens = passed ++ (settle behind tokens).ahead ∧
      (settle behind tokens).behind = passed.reverse ++ behind := by
  induction tokens generalizing behind with
  | nil => exact ⟨[], rfl, rfl⟩
  | cons token tokens ih =>
      unfold settle
      split
      · obtain ⟨passed, hahead, hbehind⟩ := ih (token :: behind)
        refine ⟨token :: passed, ?_, ?_⟩
        · rw [List.cons_append, ← hahead]
        · rw [hbehind]
          simp
      · exact ⟨[], rfl, rfl⟩

theorem begun_enter (behind tokens : List Token) : (enter behind tokens).Begun := by
  cases tokens <;> trivial

theorem begun_settle (behind tokens : List Token) : (settle behind tokens).Begun := by
  induction tokens generalizing behind with
  | nil => trivial
  | cons token tokens ih =>
      unfold settle
      split
      · exact ih _
      · trivial

theorem leadsTo_moveNext (cursor : Cursor) : cursor.LeadsTo cursor.moveNext := by
  cases cursor with
  | start tokens =>
      exact ⟨⟨[], (ahead_enter [] tokens).symm, behind_enter [] tokens⟩,
        fun _ => begun_enter [] tokens⟩
  | on behind token tokens =>
      exact ⟨⟨[token], congrArg (token :: ·) (ahead_enter _ _).symm, behind_enter _ _⟩,
        fun _ => begun_enter _ tokens⟩
  | past behind => exact LeadsTo.refl _

/-- Leaving a token, the next significant one is not before the next one. -/
theorem moveNext_leadsTo_next (cursor : Cursor) : cursor.moveNext.LeadsTo cursor.next := by
  have hsettle : ∀ behind tokens, (enter behind tokens).LeadsTo (settle behind tokens) := by
    intro behind tokens
    obtain ⟨passed, hahead, hbehind⟩ := settle_passes behind tokens
    exact ⟨⟨passed, by rw [ahead_enter]; exact hahead, by rw [behind_enter]; exact hbehind⟩,
      fun _ => begun_settle behind tokens⟩
  cases cursor with
  | start tokens => exact hsettle [] tokens
  | on behind token tokens => exact hsettle (token :: behind) tokens
  | past behind => exact LeadsTo.refl _

theorem leadsTo_next (cursor : Cursor) : cursor.LeadsTo cursor.next :=
  cursor.leadsTo_moveNext.trans cursor.moveNext_leadsTo_next

theorem leadsTo_skipTrivia (cursor : Cursor) : cursor.LeadsTo cursor.skipTrivia := by
  cases cursor with
  | start tokens => exact LeadsTo.refl _
  | on behind token tokens =>
      exact ⟨settle_passes behind (token :: tokens), fun _ => begun_settle behind _⟩
  | past behind => exact LeadsTo.refl _

theorem collectFrom_passes (source : List Char) (stops : List TokenKind)
    (behind tokens : List Token) :
    ∃ passed, tokens = passed ++ (collectFrom source stops behind tokens).2.ahead ∧
      (collectFrom source stops behind tokens).2.behind = passed.reverse ++ behind := by
  induction tokens generalizing behind with
  | nil => exact ⟨[], rfl, rfl⟩
  | cons token tokens ih =>
      unfold collectFrom
      split
      · exact ⟨[], rfl, rfl⟩
      · obtain ⟨passed, hahead, hbehind⟩ := ih (token :: behind)
        refine ⟨token :: passed, ?_, ?_⟩
        · rw [List.cons_append]
          exact congrArg _ hahead
        · refine hbehind.trans ?_
          simp

theorem begun_collectFrom (source : List Char) (stops : List TokenKind)
    (behind tokens : List Token) : (collectFrom source stops behind tokens).2.Begun := by
  induction tokens generalizing behind with
  | nil => trivial
  | cons token tokens ih =>
      unfold collectFrom
      split
      · trivial
      · exact ih _

theorem leadsTo_collectText (source : List Char) (stops : List TokenKind) (cursor : Cursor) :
    cursor.LeadsTo (cursor.collectText source stops).2 := by
  cases cursor with
  | start tokens => exact LeadsTo.refl _
  | on behind token tokens =>
      exact ⟨collectFrom_passes source stops behind (token :: tokens),
        fun _ => begun_collectFrom source stops behind _⟩
  | past behind => exact LeadsTo.refl _

theorem remaining_moveNext_lt (h : cursor.token? = some token) :
    cursor.moveNext.remaining < cursor.remaining := by
  cases cursor with
  | on behind current tokens =>
      show (enter (current :: behind) tokens).ahead.length < tokens.length + 1
      simp
  | start tokens => cases h
  | past behind => cases h

theorem remaining_next_lt (h : cursor.token? = some token) :
    cursor.next.remaining < cursor.remaining :=
  Nat.lt_of_le_of_lt cursor.moveNext_leadsTo_next.remaining_le (remaining_moveNext_lt h)

/-! ## Going back -/

theorem settled_settle {behind : List Token} (h : behind ≠ []) (tokens : List Token) :
    (settle behind tokens).Settled := by
  induction tokens generalizing behind with
  | nil => trivial
  | cons token tokens ih =>
      unfold settle
      split
      · exact ih (List.cons_ne_nil _ _)
      · rename_i htoken
        exact ⟨h, by simpa using htoken⟩

theorem settled_next (h : cursor.Begun) : cursor.next.Settled := by
  cases cursor with
  | start tokens => cases h
  | on behind current tokens => exact settled_settle (List.cons_ne_nil _ _) tokens
  | past behind => trivial

theorem Settled.begun (h : cursor.Settled) : cursor.Begun := by
  cases cursor with
  | start tokens => exact h
  | on behind token ahead => trivial
  | past behind => trivial

theorem Settled.next (h : cursor.Settled) : cursor.next.Settled :=
  settled_next h.begun

theorem settled_skipTrivia_collectFrom (source : List Char) (stops : List TokenKind)
    {behind : List Token} (h : behind ≠ []) (tokens : List Token) :
    (collectFrom source stops behind tokens).2.skipTrivia.Settled := by
  induction tokens generalizing behind with
  | nil => trivial
  | cons token tokens ih =>
      unfold collectFrom
      split
      · exact settled_settle h (token :: tokens)
      · exact ih (List.cons_ne_nil _ _)

theorem settled_skipTrivia_collectText (source : List Char) (stops : List TokenKind)
    (h : cursor.Settled) : (cursor.collectText source stops).2.skipTrivia.Settled := by
  cases cursor with
  | start tokens => cases h
  | on behind token tokens =>
      exact settled_skipTrivia_collectFrom source stops h.1 (token :: tokens)
  | past behind => trivial

theorem next_settleBack (behind : List Token) (token : Token) (ahead : List Token) :
    (settleBack behind token ahead).next = settle (token :: behind) ahead := by
  induction behind generalizing token ahead with
  | nil => rfl
  | cons before behind ih =>
      unfold settleBack
      split
      · rename_i htoken
        rw [ih, settle, if_pos htoken]
      · rfl

theorem Settled.next_previous (h : cursor.Settled) : cursor.previous.next = cursor := by
  cases cursor with
  | start tokens => cases h
  | past behind =>
      cases behind with
      | nil => rfl
      | cons token behind => exact next_settleBack behind token []
  | on behind current tokens =>
      rcases h with ⟨hbehind, hcurrent⟩
      cases behind with
      | nil => exact (hbehind rfl).elim
      | cons token behind =>
          refine (next_settleBack behind token (current :: tokens)).trans ?_
          rw [settle, hcurrent]
          rfl

theorem previous_settle (behind : List Token) (token : Token) (ahead : List Token) :
    (settle (token :: behind) ahead).previous = settleBack behind token ahead := by
  induction ahead generalizing behind token with
  | nil => rfl
  | cons following ahead ih =>
      unfold settle
      split
      · rename_i hfollowing
        rw [ih, settleBack, if_pos hfollowing]
      · rfl

theorem settleBack_significant (behind ahead : List Token) (h : token.isTrivia = false) :
    settleBack behind token ahead = .on behind token ahead := by
  cases behind with
  | nil => rfl
  | cons before behind => simp [settleBack, h]

/-- Going on from a significant token and back again stays on it. -/
theorem previous_next (htoken : cursor.token? = some token) (h : token.isTrivia = false) :
    cursor.next.previous = cursor := by
  cases cursor with
  | on behind current ahead =>
      obtain rfl : current = token := Option.some.inj htoken
      exact (previous_settle behind current ahead).trans (settleBack_significant behind ahead h)
  | start tokens => cases htoken
  | past behind => cases htoken

/-! ## Indices -/

theorem index_of_begun (h : cursor.Begun) : cursor.index = cursor.behind.length := by
  cases cursor with
  | start tokens => exact h.elim
  | on behind token ahead => rfl
  | past behind => rfl

theorem LeadsTo.index_le (h : first.LeadsTo second) (hbegun : first.Begun) :
    first.index ≤ second.index := by
  obtain ⟨passed, -, hbehind⟩ := h.passes
  rw [index_of_begun hbegun, index_of_begun (h.begun hbegun), hbehind, List.length_append]
  omega

theorem index_lt_next (h : cursor.token? = some token) : cursor.index < cursor.next.index := by
  cases cursor with
  | start tokens => cases h
  | past behind => cases h
  | on behind current ahead =>
      have hle := (on behind current ahead).moveNext_leadsTo_next.index_le
        (begun_enter (current :: behind) ahead)
      have hmove : (on behind current ahead).moveNext.index = behind.length + 1 := by
        refine (index_of_begun (begun_enter _ _)).trans ?_
        show ((enter (current :: behind) ahead).behind.length : Int) = _
        rw [behind_enter, List.length_cons]
        omega
      have hindex : (on behind current ahead).index = behind.length := rfl
      omega

theorem seek_append (behind passed : List Token) (token : Token) (ahead : List Token) :
    seek behind (passed ++ token :: ahead) passed.length =
      .on (passed.reverse ++ behind) token ahead := by
  induction passed generalizing behind with
  | nil => rfl
  | cons first passed ih =>
      refine (ih (first :: behind)).trans ?_
      simp

theorem seek_length (behind tokens : List Token) :
    seek behind tokens tokens.length = .past (tokens.reverse ++ behind) := by
  induction tokens generalizing behind with
  | nil => rfl
  | cons first tokens ih =>
      refine (ih (first :: behind)).trans ?_
      simp

/-- The index of a place in the same row of tokens leads back to that place. -/
theorem moveTo_index {other : Cursor} (h : other.tokens = cursor.tokens) :
    other.moveTo cursor.index = .ok cursor := by
  unfold moveTo
  rw [h]
  cases cursor with
  | start tokens =>
      rw [if_pos (show (start tokens).index = -1 from rfl)]
      unfold rewind
      rw [h]
      rfl
  | on behind token ahead =>
      have hindex : (on behind token ahead).index = (behind.length : Nat) := rfl
      have htokens : (on behind token ahead).tokens = behind.reverse ++ token :: ahead := rfl
      have hlength : behind.length ≤ (behind.reverse ++ token :: ahead).length := by simp
      have hseek := seek_append [] behind.reverse token ahead
      rw [List.length_reverse, List.reverse_reverse, List.append_nil] at hseek
      rw [hindex, htokens, if_neg (by omega), if_pos (by omega), Int.toNat_natCast, hseek]
  | past behind =>
      have hindex : (past behind).index = (behind.length : Nat) := rfl
      have htokens : (past behind).tokens = behind.reverse := rfl
      have hseek := seek_length [] behind.reverse
      rw [List.length_reverse, List.reverse_reverse, List.append_nil] at hseek
      rw [hindex, htokens, List.length_reverse, if_neg (by omega), if_pos (by omega),
        Int.toNat_natCast, hseek]

/-! ## Places in the text -/

theorem LeadsTo.placed (h : first.LeadsTo second) (hplaced : first.Placed source) :
    second.Placed source where
  begun := h.begun hplaced.begun
  tiles := by rw [h.tokens_eq]; exact hplaced.tiles
  covers := by rw [h.tokens_eq]; exact hplaced.covers

/-- The place of a cursor is where the tokens ahead of it begin. -/
theorem Placed.tiles_ahead (h : cursor.Placed source) :
    Token.Tiles (cursor.offset source) cursor.ahead source.length := by
  have htiles := h.tiles
  rw [tokens_eq] at htiles
  obtain ⟨middle, hbehind, hahead⟩ := htiles.split
  cases cursor with
  | start tokens =>
      obtain rfl : 0 = middle := hbehind
      exact hahead
  | on behind token ahead => exact ⟨rfl, hahead.2⟩
  | past behind => exact rfl

theorem LeadsTo.offset_le (h : first.LeadsTo second) (hplaced : first.Placed source) :
    first.offset source ≤ second.offset source := by
  have hfirst := hplaced.tiles_ahead
  have hsecond := (h.placed hplaced).tiles_ahead
  obtain ⟨passed, hahead, -⟩ := h.passes
  rw [hahead] at hfirst
  obtain ⟨middle, hpassed, hrest⟩ := hfirst.split
  rw [← hrest.start_unique hsecond]
  exact hpassed.start_le

theorem mem_tokens (h : cursor.token? = some token) : token ∈ cursor.tokens := by
  cases cursor with
  | on behind current ahead =>
      obtain rfl : current = token := Option.some.inj h
      simp [tokens]
  | start tokens => cases h
  | past behind => cases h

theorem offset_of_token? (h : cursor.token? = some token) :
    cursor.offset source = token.offset := by
  cases cursor with
  | on behind current ahead =>
      obtain rfl : current = token := Option.some.inj h
      rfl
  | start tokens => cases h
  | past behind => cases h

/-- A token forward, a cursor is where the token ends. -/
theorem Placed.offset_moveNext (h : cursor.Placed source) (htoken : cursor.token? = some token) :
    cursor.moveNext.offset source = token.stop := by
  have hnext := ((leadsTo_moveNext cursor).placed h).tiles_ahead
  have htiles := h.tiles_ahead
  cases cursor with
  | on behind current ahead =>
      obtain rfl : current = token := Option.some.inj htoken
      have hahead : (on behind current ahead).moveNext.ahead = ahead := ahead_enter _ _
      rw [hahead] at hnext
      exact hnext.start_unique htiles.2
  | start tokens => cases htoken
  | past behind => cases htoken

theorem Placed.stop_le_next (h : cursor.Placed source) (htoken : cursor.token? = some token) :
    token.stop ≤ cursor.next.offset source := by
  rw [← h.offset_moveNext htoken]
  exact cursor.moveNext_leadsTo_next.offset_le ((leadsTo_moveNext cursor).placed h)

theorem next_of_none (h : cursor.Begun) (htoken : cursor.token? = none) :
    cursor.next = cursor := by
  cases cursor with
  | start tokens => exact h.elim
  | on behind token ahead => cases htoken
  | past behind => rfl

/-- Behind the last token, a cursor is at the end of the text. -/
theorem offset_of_none (h : cursor.Begun) (htoken : cursor.token? = none) :
    cursor.offset source = source.length := by
  cases cursor with
  | start tokens => exact h.elim
  | on behind token ahead => cases htoken
  | past behind => rfl

theorem Placed.offset_le_length (h : cursor.Placed source) :
    cursor.offset source ≤ source.length :=
  h.tiles_ahead.start_le

theorem Placed.length_text (h : cursor.Placed source) (htoken : cursor.token? = some token) :
    token.offset + (token.text source).length = token.stop := by
  have hmove := (leadsTo_moveNext cursor).placed h
  have hstop := hmove.offset_le_length
  rw [h.offset_moveNext htoken] at hstop
  exact (h.covers token (mem_tokens htoken)).length_text hstop

end Cursor

end Manifest
