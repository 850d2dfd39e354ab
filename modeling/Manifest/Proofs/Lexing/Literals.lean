import Manifest.Proofs.Lexing.PushBack
import Manifest.Proofs.Reading.Place

/-!
# Comments, runs and literals by push-back

Each scanner closes the token that the lexical grammar on symbols describes.  The
scanners keep what they know of the units before in flags; the grammar looks ahead.
-/

namespace Manifest

@[simp]
theorem except_ok_bind {ε α β : Type} (value : α) (next : α → Except ε β) :
    ((Except.ok value : Except ε α) >>= next) = next value :=
  rfl

namespace PushBack

open Manifest.Symbol (lineBreakSize lineSize stringEnd regexpEnd blockCommentEnd)

variable {site : Site} {reader : Reader} {ahead : List Symbol} {extra taken steps : Nat}

/-- The answer is the token of a lexeme, spelled by the glyphs of its site, and a reader at
the site behind it. -/
def Gives (site : Site) (answer : Answer) (lexeme : Lexeme) : Prop :=
  ∃ after,
    answer = .ok (LexedToken.place site.start (site.glyphs.take lexeme.size) lexeme, after) ∧
      after.At (site.after lexeme.size) 0 (site.after lexeme.size).symbols

/-! ## Closing tokens -/

theorem boundedRange_eq (offset length : Nat) :
    boundedRange offset length = .ok (TextRange.sized offset length) := by
  unfold boundedRange TextRange.ofOffset
  rw [← Int.natCast_add, TextRange.ofBounds_natCast (Nat.le_add_right offset length)]
  rfl

theorem close_gives {lexeme : Lexeme} {shared? : Option (List Char)} {finding? : Option Finding}
    (h : reader.Took site lexeme.size ahead)
    (hshared : shared?.or lexeme.kind.spelling? =
      Token.sharedSpelling? lexeme.kind (site.glyphs.take lexeme.size))
    (hfinding : finding? = lexeme.finding?) :
    Gives site (close lexeme.kind lexeme.isPartial lexeme.hasEscape shared? finding? reader)
      lexeme := by
  obtain ⟨after, hconsume, hafter⟩ := h.consume
  refine ⟨after, ?_, hafter⟩
  unfold close
  dsimp only
  rw [boundedRange_eq, hshared, hfinding, hconsume]
  simp only [except_ok_bind]
  rw [h.hasEscapeWithin_eq, h.readLength_eq, h.start_eq]
  rfl

theorem sharedSpelling?_of_ne {kind : TokenKind} (hkind : kind ≠ .whitespace)
    (glyphs : List Glyph) : Token.sharedSpelling? kind glyphs = kind.spelling? := by
  unfold Token.sharedSpelling?
  cases kind.spelling? with
  | some spelling => rfl
  | none => simp [hkind]

theorem closeWhole_gives {kind : TokenKind} (h : reader.Took site (extra + 1) ahead)
    (hshared : Token.sharedSpelling? kind (site.glyphs.take (extra + 1)) = kind.spelling?)
    (herror : kind ≠ .error) :
    Gives site (closeWhole kind reader) (.whole kind extra) := by
  have hfinding : (Lexeme.whole kind extra).finding? = none := by
    cases kind with
    | error => exact (herror rfl).elim
    | _ => rfl
  have hnone : (none : Option (List Char)).or (Lexeme.whole kind extra).kind.spelling? =
      Token.sharedSpelling? kind (site.glyphs.take (extra + 1)) := hshared.symm
  exact close_gives h hnone hfinding.symm

theorem close_literal_gives {kind : TokenKind} {ending : LiteralEnd}
    (h : reader.Took site (extra + ending.size + 1) ahead) (hkind : kind ≠ .whitespace)
    {finding? : Option Finding}
    (hfinding : finding? = (Lexeme.literal kind extra ending).finding?) :
    Gives site (close kind (!ending.closed) ending.escaped none finding? reader)
      (.literal kind extra ending) := by
  have hshared : (none : Option (List Char)).or (Lexeme.literal kind extra ending).kind.spelling? =
      Token.sharedSpelling? kind (site.glyphs.take (extra + ending.size + 1)) :=
    (sharedSpelling?_of_ne hkind _).symm
  exact close_gives h hshared hfinding

/-! ## Runs and comments -/

theorem run_gives {test : Symbol → Bool} {kind : TokenKind} (h : reader.Took site (extra + 1) ahead)
    (hsteps : ahead.length < steps) (herror : kind ≠ .error)
    (hshared : Token.sharedSpelling? kind
      (site.glyphs.take (extra + Lexeme.runSize test ahead + 1)) = kind.spelling?) :
    Gives site (run test kind steps reader)
      (.whole kind (extra + Lexeme.runSize test ahead)) := by
  induction steps generalizing extra ahead reader with
  | zero => omega
  | succ steps ih =>
      unfold run
      cases ahead with
      | nil =>
          obtain ⟨after, hread, -, before, hunread, hbefore⟩ := h.read_nil
          simp only [hread, hunread, except_ok_bind, Option.any_none, Bool.false_eq_true, if_false]
          exact closeWhole_gives hbefore hshared herror
      | cons unit rest =>
          obtain ⟨after, hread, hafter, before, hunread, hbefore⟩ := h.read_cons
          simp only [hread, hunread, except_ok_bind, Option.any_some]
          by_cases htest : test unit = true
          · have hsize : extra + Lexeme.runSize test (unit :: rest) =
                extra + 1 + Lexeme.runSize test rest := by
              simp only [Lexeme.runSize, List.takeWhile_cons, htest, if_true, List.length_cons]
              omega
            rw [if_pos htest, hsize]
            rw [hsize] at hshared
            rw [List.length_cons] at hsteps
            exact ih hafter (by omega) hshared
          · have hsize : Lexeme.runSize test (unit :: rest) = 0 := by
              simp [Lexeme.runSize, htest]
            rw [if_neg htest, hsize]
            rw [hsize] at hshared
            exact closeWhole_gives hbefore hshared herror

theorem lineFeed_took {rest : List Symbol} (h : reader.Took site (taken + 1) rest) :
    ∃ after behind, lineFeed reader = .ok after ∧
      after.Took site (taken + lineBreakSize (.char '\r' :: rest)) behind := by
  unfold lineFeed
  cases rest with
  | nil =>
      obtain ⟨after, hread, -, before, hunread, hbefore⟩ := h.read_nil
      exact ⟨before, [], by simp [hread, hunread], hbefore⟩
  | cons unit rest =>
      obtain ⟨after, hread, hafter, before, hunread, hbefore⟩ := h.read_cons
      by_cases hunit : unit = .char '\n'
      · subst hunit
        exact ⟨after, rest, by simp [hread]; rfl, hafter⟩
      · have hsize : lineBreakSize (.char '\r' :: unit :: rest) = 1 := by
          unfold lineBreakSize
          split <;> simp_all
        rw [hsize]
        exact ⟨before, unit :: rest, by simp [hread, hunit, hunread], hbefore⟩

theorem isNewline_iff (unit : Symbol) :
    unit.isNewline = true ↔ unit = .char '\n' ∨ unit = .char '\r' := by
  cases unit <;> simp [Symbol.isNewline]

theorem lineBreakSize_feed (rest : List Symbol) : lineBreakSize (.char '\n' :: rest) = 1 := by
  simp [lineBreakSize]

theorem comment_gives (h : reader.Took site (extra + 1) ahead) (hsteps : ahead.length < steps) :
    Gives site (comment steps reader) (.whole .comment (extra + lineSize ahead)) := by
  have hshared : ∀ glyphs, Token.sharedSpelling? .comment glyphs = TokenKind.comment.spelling? :=
    sharedSpelling?_of_ne (by decide)
  induction steps generalizing extra ahead reader with
  | zero => omega
  | succ steps ih =>
      unfold comment
      cases ahead with
      | nil =>
          obtain ⟨after, hread, hafter, -⟩ := h.read_nil
          simp only [hread, except_ok_bind]
          exact closeWhole_gives hafter (hshared _) (by decide)
      | cons unit rest =>
          obtain ⟨after, hread, hafter, -⟩ := h.read_cons
          rw [List.length_cons] at hsteps
          simp only [hread, except_ok_bind, Option.some.injEq, reduceCtorEq, or_false]
          by_cases hreturn : unit = .char '\r'
          · subst hreturn
            obtain ⟨last, behind, hfeed, hlast⟩ := lineFeed_took hafter
            have hsize : lineSize (.char '\r' :: rest) = lineBreakSize (.char '\r' :: rest) := by
              simp [lineSize, Symbol.isNewline]
            rw [if_pos rfl, hfeed, hsize]
            rw [Nat.add_right_comm] at hlast
            exact closeWhole_gives hlast (hshared _) (by decide)
          · by_cases hfeed : unit = .char '\n'
            · subst hfeed
              have hsize : lineSize (.char '\n' :: rest) = 1 := by
                simp [lineSize, Symbol.isNewline, lineBreakSize_feed]
              rw [if_neg hreturn, if_pos rfl, hsize]
              exact closeWhole_gives hafter (hshared _) (by decide)
            · have hnewline : unit.isNewline = false := by
                rw [← Bool.not_eq_true, isNewline_iff]
                simp [hreturn, hfeed]
              have hsize : extra + lineSize (unit :: rest) = extra + 1 + lineSize rest := by
                simp only [lineSize, hnewline, Bool.false_eq_true, if_false]
                omega
              rw [if_neg hreturn, if_neg hfeed, hsize]
              exact ih hafter (by omega)

/-! ## Strings -/

def marked (escaped : Bool) (ending : LiteralEnd) : LiteralEnd :=
  { ending with escaped := escaped || ending.escaped }

theorem literal_marked_after (kind : TokenKind) (extra count : Nat) (escaped : Bool)
    (ending : LiteralEnd) :
    Lexeme.literal kind extra (marked escaped (ending.after count)) =
      .literal kind (extra + count) (marked escaped ending) := by
  simp [Lexeme.literal, marked, LiteralEnd.after, Nat.add_assoc]

theorem literal_marked_withEscape (kind : TokenKind) (extra : Nat) (escaped : Bool)
    (ending : LiteralEnd) :
    Lexeme.literal kind extra (marked escaped ending.withEscape) =
      .literal kind extra (marked true ending) := by
  simp [Lexeme.literal, marked, LiteralEnd.withEscape]

theorem closePartial_gives {kind : TokenKind} {finding : Finding} {escaped : Bool} {size : Nat}
    (h : reader.Took site (extra + size + 1) ahead) (hkind : kind ≠ .whitespace)
    (hfinding : some finding = (Lexeme.literal kind extra ⟨size, false, escaped⟩).finding?) :
    Gives site (closePartial kind finding escaped reader)
      (.literal kind extra (marked escaped (.leaveOpen size))) := by
  have hmarked : marked escaped (.leaveOpen size) = ⟨size, false, escaped⟩ := by
    simp [marked, LiteralEnd.leaveOpen]
  rw [hmarked]
  exact close_literal_gives h hkind hfinding

theorem closeClosed_gives {kind : TokenKind} {escaped : Bool}
    (h : reader.Took site (extra + 1 + 1) ahead) (hkind : kind ≠ .whitespace)
    (hfinding : none = (Lexeme.literal kind extra ⟨1, true, escaped⟩).finding?) :
    Gives site (close kind false escaped none none reader)
      (.literal kind extra (marked escaped .close)) := by
  have hmarked : marked escaped .close = ⟨1, true, escaped⟩ := by
    simp [marked, LiteralEnd.close]
  rw [hmarked]
  exact close_literal_gives h hkind hfinding

theorem string_gives {multiline escaped : Bool} {quote : Char}
    (h : reader.Took site (extra + 1) ahead) (hsteps : ahead.length < steps) :
    Gives site (string multiline quote steps escaped reader)
      (.literal .string extra (marked escaped (stringEnd multiline quote ahead))) := by
  induction steps generalizing extra ahead reader escaped with
  | zero => omega
  | succ steps ih =>
      unfold string
      cases ahead with
      | nil =>
          obtain ⟨after, hread, hafter, -⟩ := h.read_nil
          simp only [hread, except_ok_bind, reduceCtorEq, if_false, if_true, stringEnd]
          exact closePartial_gives hafter (by decide) rfl
      | cons unit rest =>
          obtain ⟨after, hread, hafter, -⟩ := h.read_cons
          rw [List.length_cons] at hsteps
          simp only [hread, except_ok_bind, Option.some.injEq, reduceCtorEq, if_false]
          unfold stringEnd
          by_cases hquote : unit = .char quote
          · rw [if_pos hquote, if_pos hquote]
            exact closeClosed_gives hafter (by decide) rfl
          · rw [if_neg hquote, if_neg hquote]
            by_cases hbackslash : unit = .char '\\'
            · rw [if_pos hbackslash, if_pos hbackslash]
              cases rest with
              | nil =>
                  obtain ⟨second, hsecond, hlast, -⟩ := hafter.read_nil
                  simp only [hsecond, except_ok_bind, literal_marked_withEscape]
                  exact ih hlast (by simpa using hsteps)
              | cons next rest =>
                  obtain ⟨second, hsecond, hlast, -⟩ := hafter.read_cons
                  rw [List.length_cons] at hsteps
                  simp only [hsecond, except_ok_bind, literal_marked_withEscape,
                    literal_marked_after]
                  exact ih hlast (by omega)
            · rw [if_neg hbackslash, if_neg hbackslash]
              by_cases hnewline : unit = .char '\r' ∨ unit = .char '\n'
              · have htrue : unit.isNewline = true := (isNewline_iff unit).2 hnewline.symm
                rw [if_pos hnewline, htrue]
                cases multiline with
                | true =>
                    simp only [if_true, Bool.not_true, Bool.and_false, Bool.false_eq_true,
                      if_false, literal_marked_after]
                    exact ih hafter (by omega)
                | false =>
                    simp only [Bool.false_eq_true, if_false, Bool.not_false, Bool.and_self,
                      if_true]
                    by_cases hreturn : unit = .char '\r'
                    · subst hreturn
                      obtain ⟨last, behind, hfeed, hlast⟩ := lineFeed_took hafter
                      rw [if_pos rfl, hfeed]
                      rw [Nat.add_right_comm] at hlast
                      exact closePartial_gives hlast (by decide) rfl
                    · obtain rfl : unit = .char '\n' := hnewline.resolve_left hreturn
                      rw [if_neg hreturn, lineBreakSize_feed]
                      exact closePartial_gives hafter (by decide) rfl
              · have hfalse : unit.isNewline = false := by
                  rw [← Bool.not_eq_true, isNewline_iff, or_comm]
                  exact hnewline
                rw [if_neg hnewline, hfalse]
                simp only [Bool.false_and, Bool.false_eq_true, if_false, literal_marked_after]
                exact ih hafter (by omega)

/-! ## Regular expressions and block comments -/

def escapedEnd : List Symbol → LiteralEnd
  | [] => .leaveOpen 0
  | next :: rest =>
      if next.isNewline then .leaveOpen (lineBreakSize (next :: rest))
      else (regexpEnd rest).after 1

theorem regexpEnd_backslash (rest : List Symbol) :
    regexpEnd (.char '\\' :: rest) = ((escapedEnd rest).after 1).withEscape := by
  have hnewline : (Symbol.char '\\').isNewline = false := by decide
  have hslash : (Symbol.char '\\') ≠ .char '/' := by decide
  unfold regexpEnd
  simp only [hnewline, Bool.false_eq_true, if_false, hslash, if_true]
  cases rest with
  | nil => rfl
  | cons next rest =>
      unfold escapedEnd
      by_cases hnext : next.isNewline = true
      · simp [hnext, LiteralEnd.after, LiteralEnd.leaveOpen]
      · simp [hnext, LiteralEnd.after, LiteralEnd.withEscape]
        omega

def regexpRest (escaped : Bool) (ahead : List Symbol) : LiteralEnd :=
  if escaped then escapedEnd ahead else regexpEnd ahead

theorem regexpRest_nil (escaped : Bool) : regexpRest escaped [] = .leaveOpen 0 := by
  cases escaped <;> rfl

theorem regexpRest_slash (rest : List Symbol) : regexpRest false (.char '/' :: rest) = .close := by
  show regexpEnd (.char '/' :: rest) = .close
  unfold regexpEnd
  rfl

theorem regexpRest_newline (escaped : Bool) {unit : Symbol} (rest : List Symbol)
    (h : unit.isNewline = true) :
    regexpRest escaped (unit :: rest) = .leaveOpen (lineBreakSize (unit :: rest)) := by
  cases escaped with
  | true => simp [regexpRest, escapedEnd, h]
  | false =>
      show regexpEnd (unit :: rest) = _
      unfold regexpEnd
      rw [if_pos h]

/-- A backslash escapes the next symbol, unless it is escaped itself. -/
theorem marked_regexpRest_backslash {hasEscape escaped : Bool} (rest : List Symbol)
    (hescape : escaped = true → hasEscape = true) :
    marked hasEscape (regexpRest escaped (.char '\\' :: rest)) =
      marked true ((regexpRest (!escaped) rest).after 1) := by
  have hnewline : (Symbol.char '\\').isNewline = false := by decide
  cases escaped with
  | true => simp [regexpRest, escapedEnd, hnewline, hescape rfl]
  | false =>
      simp [regexpRest, regexpEnd_backslash, marked, LiteralEnd.withEscape, LiteralEnd.after]

theorem regexpRest_other (escaped : Bool) {unit : Symbol} (rest : List Symbol)
    (hnewline : unit.isNewline = false) (hbackslash : unit ≠ .char '\\')
    (hslash : ¬ (unit = .char '/' ∧ escaped = false)) :
    regexpRest escaped (unit :: rest) = (regexpRest false rest).after 1 := by
  cases escaped with
  | true => simp [regexpRest, escapedEnd, hnewline]
  | false =>
      have hopen : unit ≠ .char '/' := fun h => hslash ⟨h, rfl⟩
      show regexpEnd (unit :: rest) = (regexpEnd rest).after 1
      conv => lhs; unfold regexpEnd
      rw [hnewline, if_neg Bool.false_ne_true, if_neg hopen, if_neg hbackslash]

theorem regexp_gives {hasEscape escaped : Bool} (h : reader.Took site (extra + 1) ahead)
    (hsteps : ahead.length < steps) (hescape : escaped = true → hasEscape = true) :
    Gives site (regexp steps hasEscape escaped reader)
      (.literal .regexp extra (marked hasEscape (regexpRest escaped ahead))) := by
  induction steps generalizing extra ahead reader hasEscape escaped with
  | zero => omega
  | succ steps ih =>
      unfold regexp
      cases ahead with
      | nil =>
          obtain ⟨after, hread, hafter, -⟩ := h.read_nil
          simp only [hread, except_ok_bind, reduceCtorEq, false_or, if_false, if_true,
            regexpRest_nil]
          exact closePartial_gives hafter (by decide) rfl
      | cons unit rest =>
          obtain ⟨after, hread, hafter, -⟩ := h.read_cons
          rw [List.length_cons] at hsteps
          simp only [hread, except_ok_bind, Option.some.injEq, reduceCtorEq, or_false]
          by_cases hreturn : unit = .char '\r'
          · subst hreturn
            obtain ⟨last, behind, hfeed, hlast⟩ := lineFeed_took hafter
            rw [if_pos rfl, hfeed, regexpRest_newline escaped rest (by decide)]
            rw [Nat.add_right_comm] at hlast
            exact closePartial_gives hlast (by decide) rfl
          · rw [if_neg hreturn]
            by_cases hfeed : unit = .char '\n'
            · subst hfeed
              rw [if_pos rfl, regexpRest_newline escaped rest (by decide), lineBreakSize_feed]
              exact closePartial_gives hafter (by decide) rfl
            · have hnewline : unit.isNewline = false := by
                rw [← Bool.not_eq_true, isNewline_iff]
                simp [hreturn, hfeed]
              rw [if_neg hfeed]
              by_cases hbackslash : unit = .char '\\'
              · subst hbackslash
                rw [if_pos rfl, marked_regexpRest_backslash rest hescape, literal_marked_after]
                exact ih hafter (by omega) fun _ => rfl
              · rw [if_neg hbackslash]
                by_cases hslash : unit = .char '/' ∧ escaped = false
                · rcases hslash with ⟨rfl, rfl⟩
                  rw [if_pos ⟨rfl, rfl⟩, regexpRest_slash]
                  exact closeClosed_gives hafter (by decide) rfl
                · rw [if_neg hslash, regexpRest_other escaped rest hnewline hbackslash hslash,
                    literal_marked_after]
                  exact ih hafter (by omega) fun hfalse => Bool.noConfusion hfalse

def commentRest (star : Bool) (ahead : List Symbol) : LiteralEnd :=
  match star, ahead with
  | true, .char '/' :: _ => .close
  | _, ahead => blockCommentEnd ahead

theorem blockCommentEnd_cons (unit : Symbol) (rest : List Symbol) :
    blockCommentEnd (unit :: rest) =
      (commentRest (unit == .char '*') rest).after 1 := by
  by_cases hstar : unit = .char '*'
  · subst hstar
    unfold commentRest
    split
    · rfl
    · rename_i hslash
      rw [blockCommentEnd]
      intro rest' h
      simp_all
  · have hfalse : (unit == .char '*') = false := by simpa using hstar
    rw [hfalse]
    unfold commentRest
    rw [blockCommentEnd]
    intro rest' h
    simp_all

theorem commentRest_nil (star : Bool) : commentRest star [] = .leaveOpen 0 := by
  cases star <;> rfl

theorem commentRest_cons {star : Bool} {unit : Symbol} (h : ¬ (unit = .char '/' ∧ star = true))
    (rest : List Symbol) :
    commentRest star (unit :: rest) = (commentRest (unit == .char '*') rest).after 1 := by
  rw [← blockCommentEnd_cons]
  unfold commentRest
  split
  · rename_i heq
    exact (h ⟨(List.cons.inj heq).1, rfl⟩).elim
  · rfl

theorem blockComment_gives {star : Bool} (h : reader.Took site (extra + 1) ahead)
    (hsteps : ahead.length < steps) :
    Gives site (blockComment steps star reader)
      (.literal .blockComment extra (marked false (commentRest star ahead))) := by
  induction steps generalizing extra ahead reader star with
  | zero => omega
  | succ steps ih =>
      unfold blockComment
      cases ahead with
      | nil =>
          obtain ⟨after, hread, hafter, -⟩ := h.read_nil
          simp only [hread, except_ok_bind, if_true, commentRest_nil]
          exact closePartial_gives hafter (by decide) rfl
      | cons unit rest =>
          obtain ⟨after, hread, hafter, -⟩ := h.read_cons
          rw [List.length_cons] at hsteps
          simp only [hread, except_ok_bind, Option.some.injEq, reduceCtorEq, if_false]
          by_cases hslash : unit = .char '/' ∧ star = true
          · rcases hslash with ⟨rfl, rfl⟩
            rw [if_pos ⟨rfl, rfl⟩]
            exact closeClosed_gives hafter (by decide) rfl
          · rw [if_neg hslash, commentRest_cons hslash, literal_marked_after]
            exact ih hafter (by omega)

end PushBack

end Manifest
