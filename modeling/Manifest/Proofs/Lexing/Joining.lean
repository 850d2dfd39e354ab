import Manifest.Proofs.Lexing.Agreement

/-!
# Lexemes of joined halves

The lexical grammar cuts a row of symbols where it cuts the same row with the halves of
each character put together.  No lexeme ends between two halves.
-/

namespace Manifest

namespace Symbol

/-- The first `count` symbols of a row make `characters` of it when halves are put together,
and end between two of these. -/
inductive Makes : List Symbol → Nat → Nat → Prop
  | nothing (symbols : List Symbol) : Makes symbols 0 0
  | pair {rest : List Symbol} {count characters : Nat} (bits lowBits : Fin 0x400)
      (h : Makes rest count characters) :
      Makes (.high bits :: .low lowBits :: rest) (count + 2) (characters + 1)
  | alone {unit : Symbol} {rest : List Symbol} {count characters : Nat}
      (halone : joinPairs (unit :: rest) = unit :: joinPairs rest)
      (h : Makes rest count characters) : Makes (unit :: rest) (count + 1) (characters + 1)

variable {symbols rest : List Symbol} {unit : Symbol} {count characters more further : Nat}

/-! ## Putting halves together -/

theorem joinPairs_alone (h : ∀ bits lowBits after, unit = .high bits →
    rest = .low lowBits :: after → False) : joinPairs (unit :: rest) = unit :: joinPairs rest := by
  rw [joinPairs]
  exact h

theorem joinPairs_char (c : Char) (rest : List Symbol) :
    joinPairs (.char c :: rest) = .char c :: joinPairs rest :=
  joinPairs_alone fun _ _ _ h => by cases h

theorem joinPairs_low (bits : Fin 0x400) (rest : List Symbol) :
    joinPairs (.low bits :: rest) = .low bits :: joinPairs rest :=
  joinPairs_alone fun _ _ _ h => by cases h

theorem joinPairs_eq_nil (h : joinPairs symbols = []) : symbols = [] := by
  induction symbols using joinPairs.induct with
  | case1 bits lowBits rest _ =>
      rw [joinPairs] at h
      cases h
  | case2 unit rest hnot _ =>
      rw [joinPairs_alone hnot] at h
      cases h
  | case3 => rfl

theorem head?_joinPairs_of (hhigh : ∀ bits, unit ≠ .high bits)
    (hjoined : ∀ bits lowBits, unit ≠ .char (joined bits lowBits)) (symbols : List Symbol) :
    (joinPairs symbols).head? = some unit ↔ symbols.head? = some unit := by
  induction symbols using joinPairs.induct with
  | case1 bits lowBits rest _ =>
      simp only [joinPairs, List.head?_cons, Option.some.injEq]
      exact ⟨fun h => (hjoined bits lowBits h.symm).elim, fun h => (hhigh bits h.symm).elim⟩
  | case2 other rest hnot _ => rw [joinPairs_alone hnot, List.head?_cons, List.head?_cons]
  | case3 => rfl

theorem head?_joinPairs {c : Char} (hc : c.toNat < 0x10000) (symbols : List Symbol) :
    (joinPairs symbols).head? = some (.char c) ↔ symbols.head? = some (.char c) :=
  head?_joinPairs_of (by simp)
    (fun bits lowBits h => joined_ne bits lowBits hc (Symbol.char.inj h).symm) symbols

/-- A character of the basic plane that begins the joined row begins the row, and what
follows it is joined too. -/
theorem eq_cons_of_joinPairs {c : Char} {after : List Symbol} (hc : c.toNat < 0x10000)
    (h : joinPairs symbols = .char c :: after) :
    ∃ rest, symbols = .char c :: rest ∧ joinPairs rest = after := by
  have hhead : (joinPairs symbols).head? = some (.char c) := by
    rw [h]
    rfl
  obtain ⟨rest, rfl⟩ := List.head?_eq_some_iff.1 ((head?_joinPairs hc symbols).1 hhead)
  rw [joinPairs_char] at h
  exact ⟨rest, rfl, (List.cons.inj h).2⟩

theorem headUnit_joinPairs (symbols : List Symbol) :
    headUnit (joinPairs symbols) = ((headUnit symbols).1, 1) := by
  match symbols with
  | [] => rfl
  | .char c :: rest =>
      rw [joinPairs_char]
      rfl
  | .low bits :: rest =>
      rw [joinPairs_low]
      rfl
  | .high bits :: .low lowBits :: rest => rfl
  | [.high bits] => rfl
  | .high bits :: .char c :: rest =>
      rw [joinPairs_alone (by rintro _ _ _ - ⟨⟩), joinPairs_char]
      rfl
  | .high bits :: .high other :: [] => rfl
  | .high bits :: .high other :: .low lowBits :: rest => rfl
  | .high bits :: .high other :: .char c :: rest =>
      rw [joinPairs_alone (by rintro _ _ _ - ⟨⟩), joinPairs_alone (by rintro _ _ _ - ⟨⟩)]
      rfl
  | .high bits :: .high other :: .high third :: rest =>
      rw [joinPairs_alone (by rintro _ _ _ - ⟨⟩), joinPairs_alone (by rintro _ _ _ - ⟨⟩)]
      rfl

theorem goesOn_joinPairs (symbols : List Symbol) : goesOn (joinPairs symbols) = goesOn symbols := by
  rw [← isPart_headUnit, headUnit_joinPairs, isPart_headUnit]

/-! ## Making characters -/

theorem Makes.char (c : Char) (h : Makes rest count characters) :
    Makes (.char c :: rest) (count + 1) (characters + 1) :=
  .alone (joinPairs_char c rest) h

theorem Makes.drop (h : Makes symbols count characters) :
    joinPairs (symbols.drop count) = (joinPairs symbols).drop characters := by
  induction h with
  | nothing symbols => rfl
  | pair bits lowBits h ih => exact ih
  | alone halone h ih =>
      rw [halone]
      exact ih

theorem Makes.take (h : Makes symbols count characters) :
    joinPairs (symbols.take count) = (joinPairs symbols).take characters := by
  induction h with
  | nothing symbols => rfl
  | pair bits lowBits h ih =>
      simp only [List.take_succ_cons, joinPairs, ih]
  | @alone unit rest count characters halone h ih =>
      rw [halone, List.take_succ_cons, List.take_succ_cons, ← ih]
      refine joinPairs_alone fun bits lowBits after hunit hafter => ?_
      cases rest with
      | nil => simp at hafter
      | cons next rest =>
          cases count with
          | zero => simp at hafter
          | succ count =>
              rw [List.take_succ_cons] at hafter
              obtain ⟨rfl, -⟩ := List.cons.inj hafter
              rw [hunit, joinPairs] at halone
              cases halone

theorem Makes.le (h : Makes symbols count characters) :
    count ≤ symbols.length ∧ characters ≤ (joinPairs symbols).length := by
  induction h with
  | nothing symbols => simp
  | pair bits lowBits h ih =>
      simp only [joinPairs, List.length_cons]
      omega
  | alone halone h ih =>
      rw [halone, List.length_cons, List.length_cons]
      omega

theorem Makes.trans (h : Makes symbols count characters)
    (h' : Makes (symbols.drop count) more further) :
    Makes symbols (count + more) (characters + further) := by
  induction h with
  | nothing symbols =>
      rw [Nat.zero_add, Nat.zero_add]
      exact h'
  | @pair rest count characters bits lowBits h ih =>
      rw [Nat.add_right_comm, Nat.add_right_comm characters]
      exact .pair bits lowBits (ih h')
  | @alone unit rest count characters halone h ih =>
      rw [Nat.add_right_comm, Nat.add_right_comm characters]
      exact .alone halone (ih h')

/-! ## Runs and lines -/

/-- A run of a test that no half and no character made of halves passes. -/
theorem makes_run {test : Symbol → Bool} (hhigh : ∀ bits, test (.high bits) = false)
    (hjoined : ∀ bits lowBits, test (.char (joined bits lowBits)) = false)
    (symbols : List Symbol) :
    Makes symbols (Lexeme.runSize test symbols) (Lexeme.runSize test (joinPairs symbols)) := by
  induction symbols using joinPairs.induct with
  | case1 bits lowBits rest _ =>
      simp only [Lexeme.runSize, joinPairs, List.takeWhile_cons, hhigh, hjoined]
      exact .nothing _
  | case2 unit rest hnot ih =>
      have halone := joinPairs_alone hnot
      unfold Lexeme.runSize at ih ⊢
      rw [halone, List.takeWhile_cons, List.takeWhile_cons]
      cases test unit with
      | true => exact .alone halone ih
      | false => exact .nothing _
  | case3 => exact .nothing _

theorem isDigit_joined (bits lowBits : Fin 0x400) :
    (Symbol.char (joined bits lowBits)).isDigit = false := by
  have htoNat := toNat_joined bits lowBits
  have hnine : ¬ joined bits lowBits ≤ '9' := by
    intro hle
    have hcode : (joined bits lowBits).toNat ≤ '9'.toNat := hle
    rw [htoNat] at hcode
    revert hcode
    have hdigit : '9'.toNat = 57 := rfl
    omega
  simp [isDigit, hnine]

theorem isNewline_joined (bits lowBits : Fin 0x400) :
    (Symbol.char (joined bits lowBits)).isNewline = false := by
  have hfeed := joined_ne bits lowBits (show '\n'.toNat < 0x10000 by decide)
  have hreturn := joined_ne bits lowBits (show '\r'.toNat < 0x10000 by decide)
  simp [isNewline, hfeed, hreturn]

theorem lineBreakSize_return (rest : List Symbol) :
    lineBreakSize (.char '\r' :: rest) = if rest.head? = some (.char '\n') then 2 else 1 := by
  unfold lineBreakSize
  split
  · rename_i heq
    obtain ⟨-, rfl⟩ := List.cons.inj heq
    rfl
  · rename_i hnot heq
    obtain ⟨-, rfl⟩ := List.cons.inj heq
    rw [if_neg]
    intro hhead
    obtain ⟨more, rfl⟩ := List.head?_eq_some_iff.1 hhead
    exact hnot more rfl
  · rename_i heq
    cases heq
  · rename_i hnot _
    exact (hnot rest rfl).elim

theorem makes_lineBreak (hunit : unit.isNewline = true) (rest : List Symbol) :
    Makes (unit :: rest) (lineBreakSize (unit :: rest))
      (lineBreakSize (unit :: joinPairs rest)) := by
  rcases (PushBack.isNewline_iff unit).1 hunit with rfl | rfl
  · rw [PushBack.lineBreakSize_feed, PushBack.lineBreakSize_feed]
    exact .char _ (.nothing rest)
  · rw [lineBreakSize_return, lineBreakSize_return]
    by_cases hfeed : rest.head? = some (.char '\n')
    · rw [if_pos hfeed, if_pos ((head?_joinPairs (by decide) rest).2 hfeed)]
      obtain ⟨more, rfl⟩ := List.head?_eq_some_iff.1 hfeed
      exact .char _ (.char _ (.nothing more))
    · rw [if_neg hfeed, if_neg fun h => hfeed ((head?_joinPairs (by decide) rest).1 h)]
      exact .char _ (.nothing rest)

theorem makes_line (symbols : List Symbol) :
    Makes symbols (lineSize symbols) (lineSize (joinPairs symbols)) := by
  induction symbols using joinPairs.induct with
  | case1 bits lowBits rest ih =>
      have hsize : lineSize (.high bits :: .low lowBits :: rest) = lineSize rest + 2 := by
        simp only [lineSize, isNewline, Bool.false_eq_true, if_false]
        omega
      have hjoined : lineSize (.char (joined bits lowBits) :: joinPairs rest) =
          lineSize (joinPairs rest) + 1 := by
        rw [lineSize, if_neg (by rw [isNewline_joined]; decide), Nat.add_comm]
      rw [joinPairs, hsize, hjoined]
      exact .pair bits lowBits ih
  | case2 unit rest hnot ih =>
      have halone := joinPairs_alone hnot
      rw [halone]
      by_cases hunit : unit.isNewline = true
      · rw [lineSize, if_pos hunit, lineSize, if_pos hunit]
        exact makes_lineBreak hunit rest
      · rw [lineSize, if_neg hunit, lineSize, if_neg hunit, Nat.add_comm 1, Nat.add_comm 1]
        exact .alone halone ih
  | case3 => exact .nothing _

/-! ## Literals -/

/-- Two ends of a literal differ at most in their size, and that of the first is counted in
symbols, that of the other in the characters that these make. -/
structure EndsAlike (symbols : List Symbol) (ending other : LiteralEnd) : Prop where
  makes : Makes symbols ending.size other.size
  closed_eq : ending.closed = other.closed
  escaped_eq : ending.escaped = other.escaped

variable {ending other : LiteralEnd}

theorem EndsAlike.leaveOpen (h : Makes symbols count characters) :
    EndsAlike symbols (.leaveOpen count) (.leaveOpen characters) :=
  ⟨h, rfl, rfl⟩

theorem EndsAlike.close (c : Char) (rest : List Symbol) :
    EndsAlike (.char c :: rest) .close .close :=
  ⟨.char c (.nothing rest), rfl, rfl⟩

theorem EndsAlike.alone (halone : joinPairs (unit :: rest) = unit :: joinPairs rest)
    (h : EndsAlike rest ending other) :
    EndsAlike (unit :: rest) (ending.after 1) (other.after 1) where
  makes := by
    show Makes _ (1 + ending.size) (1 + other.size)
    rw [Nat.add_comm 1, Nat.add_comm 1]
    exact .alone halone h.makes
  closed_eq := h.closed_eq
  escaped_eq := h.escaped_eq

theorem EndsAlike.pair (bits lowBits : Fin 0x400) (h : EndsAlike rest ending other) :
    EndsAlike (.high bits :: .low lowBits :: rest) ((ending.after 1).after 1)
      (other.after 1) where
  makes := by
    have hsize : ((ending.after 1).after 1).size = ending.size + 2 := by
      simp only [LiteralEnd.after]
      omega
    have hother : (other.after 1).size = other.size + 1 := Nat.add_comm 1 _
    rw [hsize, hother]
    exact .pair bits lowBits h.makes
  closed_eq := h.closed_eq
  escaped_eq := h.escaped_eq

theorem EndsAlike.withEscape (h : EndsAlike symbols ending other) :
    EndsAlike symbols ending.withEscape other.withEscape :=
  ⟨h.makes, h.closed_eq, rfl⟩

variable {multiline : Bool} {quote : Char}

def escapedStringEnd (multiline : Bool) (quote : Char) : List Symbol → LiteralEnd
  | [] => .leaveOpen 0
  | _ :: rest => (stringEnd multiline quote rest).after 1

theorem stringEnd_backslash (hquote : quote ≠ '\\') (rest : List Symbol) :
    stringEnd multiline quote (.char '\\' :: rest) =
      ((escapedStringEnd multiline quote rest).after 1).withEscape := by
  have hother : Symbol.char '\\' ≠ .char quote := fun h => hquote (Symbol.char.inj h).symm
  rw [stringEnd.eq_def]
  simp only [hother, if_false, if_true]
  cases rest with
  | nil => rfl
  | cons next rest =>
      simp only [escapedStringEnd, LiteralEnd.after, LiteralEnd.withEscape, ← Nat.add_assoc]

theorem stringEnd_other (hquote : unit ≠ .char quote) (hbackslash : unit ≠ .char '\\')
    (hnewline : (unit.isNewline && !multiline) = false) (rest : List Symbol) :
    stringEnd multiline quote (unit :: rest) = (stringEnd multiline quote rest).after 1 := by
  rw [stringEnd.eq_def]
  simp only [hquote, hbackslash, hnewline, if_false, Bool.false_eq_true]

theorem stringEnd_quote (rest : List Symbol) :
    stringEnd multiline quote (.char quote :: rest) = .close := by
  rw [stringEnd.eq_def]
  exact if_pos rfl

theorem stringEnd_lineBreak (hquote : unit ≠ .char quote) (hbackslash : unit ≠ .char '\\')
    (hnewline : (unit.isNewline && !multiline) = true) (rest : List Symbol) :
    stringEnd multiline quote (unit :: rest) = .leaveOpen (lineBreakSize (unit :: rest)) := by
  rw [stringEnd.eq_def]
  simp only [hquote, hbackslash, hnewline, if_false, if_true]

theorem stringEnd_low (lowBits : Fin 0x400) (rest : List Symbol) :
    stringEnd multiline quote (.low lowBits :: rest) =
      (stringEnd multiline quote rest).after 1 :=
  stringEnd_other (by simp) (by simp) rfl rest

theorem stringEnd_high (bits : Fin 0x400) (rest : List Symbol) :
    stringEnd multiline quote (.high bits :: rest) =
      (stringEnd multiline quote rest).after 1 :=
  stringEnd_other (by simp) (by simp) rfl rest

theorem stringEnd_joined (hquote : quote.toNat < 0x10000) (bits lowBits : Fin 0x400)
    (rest : List Symbol) :
    stringEnd multiline quote (.char (joined bits lowBits) :: rest) =
      (stringEnd multiline quote rest).after 1 := by
  have hbackslash : joined bits lowBits ≠ '\\' := joined_ne bits lowBits (by decide)
  apply stringEnd_other
  · simpa using joined_ne bits lowBits hquote
  · simpa using hbackslash
  · simp [isNewline_joined]

/-- A string ends alike in both rows, and so does one that a backslash was read of. -/
theorem stringEnd_alike (hquote : quote.toNat < 0x10000) (hother : quote ≠ '\\')
    (symbols : List Symbol) :
    EndsAlike symbols (stringEnd multiline quote symbols)
        (stringEnd multiline quote (joinPairs symbols)) ∧
      EndsAlike symbols (escapedStringEnd multiline quote symbols)
        (escapedStringEnd multiline quote (joinPairs symbols)) := by
  -- A backslash may take the first half of a character and leave the second, so both ends
  -- are followed at once.
  induction symbols using joinPairs.induct with
  | case1 bits lowBits rest ih =>
      rcases ih with ⟨hrest, -⟩
      rw [joinPairs]
      constructor
      · rw [stringEnd_high, stringEnd_low, stringEnd_joined hquote]
        exact hrest.pair bits lowBits
      · simp only [escapedStringEnd, stringEnd_low]
        exact hrest.pair bits lowBits
  | case2 unit rest hnot ih =>
      rcases ih with ⟨hrest, hescaped⟩
      have halone := joinPairs_alone hnot
      rw [halone]
      refine ⟨?_, hrest.alone halone⟩
      by_cases hend : unit = .char quote
      · subst hend
        rw [stringEnd_quote, stringEnd_quote]
        exact .close quote rest
      by_cases hbackslash : unit = .char '\\'
      · subst hbackslash
        rw [stringEnd_backslash hother, stringEnd_backslash hother]
        exact (hescaped.alone halone).withEscape
      cases hnewline : unit.isNewline && !multiline with
      | true =>
          have hunit : unit.isNewline = true := (Bool.and_eq_true_iff.1 hnewline).1
          rw [stringEnd_lineBreak hend hbackslash hnewline,
            stringEnd_lineBreak hend hbackslash hnewline]
          exact .leaveOpen (makes_lineBreak hunit rest)
      | false =>
          rw [stringEnd_other hend hbackslash hnewline, stringEnd_other hend hbackslash hnewline]
          exact hrest.alone halone
  | case3 => exact ⟨.leaveOpen (.nothing []), .leaveOpen (.nothing [])⟩

/-- A backslash behind another one escapes nothing. -/
theorem regexpRest_escaped (rest : List Symbol) :
    PushBack.regexpRest true (.char '\\' :: rest) = (PushBack.regexpRest false rest).after 1 :=
  rfl

theorem regexpRest_backslash (rest : List Symbol) :
    PushBack.regexpRest false (.char '\\' :: rest) =
      ((PushBack.regexpRest true rest).after 1).withEscape :=
  PushBack.regexpEnd_backslash rest

theorem regexpRest_alike (escaped : Bool) (symbols : List Symbol) :
    EndsAlike symbols (PushBack.regexpRest escaped symbols)
      (PushBack.regexpRest escaped (joinPairs symbols)) := by
  induction symbols using joinPairs.induct generalizing escaped with
  | case1 bits lowBits rest ih =>
      have hslash : joined bits lowBits ≠ '/' := joined_ne bits lowBits (by decide)
      have hbackslash : joined bits lowBits ≠ '\\' := joined_ne bits lowBits (by decide)
      rw [joinPairs, PushBack.regexpRest_other escaped _ rfl (by simp) (by simp),
        PushBack.regexpRest_other false _ rfl (by simp) (by simp),
        PushBack.regexpRest_other escaped _ (isNewline_joined bits lowBits)
          (by simpa using hbackslash) (by simp [hslash])]
      exact (ih false).pair bits lowBits
  | case2 unit rest hnot ih =>
      have halone := joinPairs_alone hnot
      rw [halone]
      cases hnewline : unit.isNewline with
      | true =>
          rw [PushBack.regexpRest_newline escaped rest hnewline,
            PushBack.regexpRest_newline escaped (joinPairs rest) hnewline]
          exact .leaveOpen (makes_lineBreak hnewline rest)
      | false =>
          by_cases hbackslash : unit = .char '\\'
          · subst hbackslash
            cases escaped with
            | true =>
                rw [regexpRest_escaped, regexpRest_escaped]
                exact (ih false).alone halone
            | false =>
                rw [regexpRest_backslash, regexpRest_backslash]
                exact ((ih true).alone halone).withEscape
          by_cases hslash : unit = .char '/' ∧ escaped = false
          · rcases hslash with ⟨rfl, rfl⟩
            rw [PushBack.regexpRest_slash, PushBack.regexpRest_slash]
            exact .close '/' rest
          · rw [PushBack.regexpRest_other escaped rest hnewline hbackslash hslash,
              PushBack.regexpRest_other escaped (joinPairs rest) hnewline hbackslash hslash]
            exact (ih false).alone halone
  | case3 =>
      rw [joinPairs, PushBack.regexpRest_nil]
      exact .leaveOpen (.nothing [])

/-- A block comment ends alike in both rows, also behind a star. -/
theorem commentRest_alike (star : Bool) (symbols : List Symbol) :
    EndsAlike symbols (PushBack.commentRest star symbols)
      (PushBack.commentRest star (joinPairs symbols)) := by
  induction symbols using joinPairs.induct generalizing star with
  | case1 bits lowBits rest ih =>
      have hslash : joined bits lowBits ≠ '/' := joined_ne bits lowBits (by decide)
      have hstar : (Symbol.char (joined bits lowBits) == .char '*') = false := by
        simpa using joined_ne bits lowBits (show '*'.toNat < 0x10000 by decide)
      rw [joinPairs, PushBack.commentRest_cons (by simp), PushBack.commentRest_cons (by simp),
        PushBack.commentRest_cons (by simp [hslash]), hstar]
      exact (ih false).pair bits lowBits
  | case2 unit rest hnot ih =>
      have halone := joinPairs_alone hnot
      rw [halone]
      by_cases hclose : unit = .char '/' ∧ star = true
      · rcases hclose with ⟨rfl, rfl⟩
        exact .close '/' rest
      · rw [PushBack.commentRest_cons hclose, PushBack.commentRest_cons hclose]
        exact (ih _).alone halone
  | case3 =>
      rw [joinPairs, PushBack.commentRest_nil]
      exact .leaveOpen (.nothing [])

end Symbol

end Manifest
