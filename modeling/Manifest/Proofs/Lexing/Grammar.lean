import Manifest.Proofs.Lexing.Delimiters
import Manifest.Proofs.Lexing.JoinedWords

/-!
# The grammar of delimited literals

Strings and regular expressions are rows of single units and of escapes between two equal
delimiters; block comments end at the first star with a slash behind it.  The lexer finds a
literal complete exactly if what is ahead begins with one, and takes just that.  What is not
complete goes on through the end of its line, or of the text.
-/

namespace Manifest

namespace Symbol

variable {single escaped : Symbol → Prop} {multiline : Bool} {quote : Char} {unit : Symbol}
  {body line linebreak rest behind : List Symbol}

/-- A row of single units and of escapes, a backslash and the unit that it takes. -/
inductive Body (single escaped : Symbol → Prop) : List Symbol → Prop
  | nil : Body single escaped []
  | single {unit : Symbol} {rest : List Symbol} (hunit : single unit)
      (h : Body single escaped rest) : Body single escaped (unit :: rest)
  | escape {unit : Symbol} {rest : List Symbol} (hunit : escaped unit)
      (h : Body single escaped rest) : Body single escaped (.char '\\' :: unit :: rest)

def StringBody (multiline : Bool) (quote : Char) : List Symbol → Prop :=
  Body
    (fun unit => unit ≠ .char quote ∧ unit ≠ .char '\\' ∧
      (unit.isNewline = true → multiline = true))
    fun _ => True

def RegexpBody : List Symbol → Prop :=
  Body (fun unit => unit ≠ .char '/' ∧ unit ≠ .char '\\' ∧ unit.isNewline = false)
    fun unit => unit.isNewline = false

/-- No newline of the row is single. -/
def EscapedLine : List Symbol → Prop :=
  Body (fun unit => unit ≠ .char '\\' ∧ unit.isNewline = false) fun _ => True

def PlainLine (line : List Symbol) : Prop :=
  ∀ unit ∈ line, unit.isNewline = false

/-- A line break with what stands behind it; a return and a feed are one break. -/
inductive LineBreak : List Symbol → List Symbol → Prop
  | feed (behind : List Symbol) : LineBreak [.char '\n'] behind
  | both (behind : List Symbol) : LineBreak [.char '\r', .char '\n'] behind
  | alone {behind : List Symbol} (h : behind.head? ≠ some (.char '\n')) :
      LineBreak [.char '\r'] behind

theorem LineBreak.size_eq (h : LineBreak linebreak behind) :
    lineBreakSize (linebreak ++ behind) = linebreak.length := by
  cases h with
  | feed => exact PushBack.lineBreakSize_feed behind
  | both => rfl
  | alone h =>
      rw [List.singleton_append, lineBreakSize_return, if_neg h]
      rfl

theorem LineBreak.exists_newline (h : LineBreak linebreak behind) :
    ∃ unit rest, linebreak ++ behind = unit :: rest ∧ unit.isNewline = true := by
  cases h with
  | feed => exact ⟨_, _, rfl, rfl⟩
  | both => exact ⟨_, _, rfl, rfl⟩
  | alone => exact ⟨_, _, rfl, rfl⟩

theorem exists_lineBreak (h : unit.isNewline = true) (rest : List Symbol) :
    ∃ linebreak behind, unit :: rest = linebreak ++ behind ∧ LineBreak linebreak behind := by
  rcases (PushBack.isNewline_iff unit).1 h with rfl | rfl
  · exact ⟨_, rest, rfl, .feed rest⟩
  · by_cases hfeed : rest.head? = some (.char '\n')
    · obtain ⟨behind, rfl⟩ := List.head?_eq_some_iff.1 hfeed
      exact ⟨_, behind, rfl, .both behind⟩
    · exact ⟨_, rest, rfl, .alone hfeed⟩

/-! ## Lines -/

/-- How a row that no delimiter ends is cut: behind its first line break that counts, or at
its end. -/
structure CutsLine (Line : List Symbol → Prop) (rest : List Symbol) (size : Nat) : Prop where
  line : ∀ line linebreak behind, Line line → LineBreak linebreak behind →
    rest = line ++ (linebreak ++ behind) → size = line.length + linebreak.length
  last : (∀ line linebreak behind, Line line → LineBreak linebreak behind →
    rest ≠ line ++ (linebreak ++ behind)) → size = rest.length

variable {Line : List Symbol → Prop} {size count : Nat}

theorem CutsLine.of_plain (h : PlainLine rest) : CutsLine Line rest rest.length where
  line := by
    rintro line linebreak behind - hbreak rfl
    obtain ⟨unit, more, hmore, hunit⟩ := hbreak.exists_newline
    have hplain := h unit (by rw [hmore]; simp)
    rw [hunit] at hplain
    cases hplain
  last := fun _ => rfl

theorem CutsLine.of_newline (hnil : Line [])
    (hline : ∀ {unit line}, Line (unit :: line) → unit.isNewline = false)
    (hunit : unit.isNewline = true) (rest : List Symbol) :
    CutsLine Line (unit :: rest) (lineBreakSize (unit :: rest)) where
  line := by
    intro line linebreak behind hin hbreak hrest
    cases line with
    | nil =>
        rw [hrest, List.nil_append, hbreak.size_eq, List.length_nil, Nat.zero_add]
    | cons other line =>
        obtain ⟨rfl, -⟩ := List.cons.inj hrest
        rw [hline hin] at hunit
        cases hunit
  last := by
    intro hnone
    obtain ⟨linebreak, behind, hrest, hbreak⟩ := exists_lineBreak hunit rest
    exact (hnone [] linebreak behind hnil hbreak hrest).elim

theorem LineBreak.ne_cons (h : LineBreak linebreak behind) (hunit : unit.isNewline = false) :
    unit :: rest ≠ linebreak ++ behind := by
  intro heq
  obtain ⟨other, more, hmore, hother⟩ := h.exists_newline
  rw [hmore] at heq
  rw [(List.cons.inj heq).1, hother] at hunit
  cases hunit

theorem CutsLine.cons (hunit : unit.isNewline = false)
    (hline : ∀ {line}, Line (unit :: line) ↔ Line line) (h : CutsLine Line rest size) :
    CutsLine Line (unit :: rest) (1 + size) where
  line := by
    intro line linebreak behind hin hbreak hrest
    cases line with
    | nil => exact (hbreak.ne_cons hunit hrest).elim
    | cons other line =>
        obtain ⟨rfl, hmore⟩ := List.cons.inj hrest
        rw [h.line line linebreak behind (hline.1 hin) hbreak hmore, List.length_cons]
        omega
  last := by
    intro hnone
    rw [List.length_cons, Nat.add_comm, h.last]
    intro line linebreak behind hin hbreak hrest
    exact hnone (unit :: line) linebreak behind (hline.2 hin) hbreak (congrArg _ hrest)

theorem CutsLine.escape (hsingle : ¬ Line [.char '\\'])
    (hline : ∀ {line}, Line (.char '\\' :: unit :: line) ↔ Line line)
    (h : CutsLine Line rest size) :
    CutsLine Line (.char '\\' :: unit :: rest) (2 + size) where
  line := by
    intro line linebreak behind hin hbreak hrest
    match line with
    | [] => exact (hbreak.ne_cons (by decide) hrest).elim
    | [other] =>
        rw [← (List.cons.inj hrest).1] at hin
        exact (hsingle hin).elim
    | other :: next :: line =>
        obtain ⟨hother, hmore⟩ := List.cons.inj hrest
        obtain ⟨hnext, hmore⟩ := List.cons.inj hmore
        rw [← hother, ← hnext] at hin
        rw [h.line line linebreak behind (hline.1 hin) hbreak hmore, List.length_cons,
          List.length_cons]
        omega
  last := by
    intro hnone
    rw [List.length_cons, List.length_cons, h.last]
    · omega
    intro line linebreak behind hin hbreak hrest
    refine hnone (.char '\\' :: unit :: line) linebreak behind (hline.2 hin) hbreak ?_
    rw [hrest]
    rfl

theorem plainLine_nil : PlainLine [] :=
  List.forall_mem_nil _

theorem plainLine_cons : PlainLine (unit :: line) ↔ unit.isNewline = false ∧ PlainLine line :=
  List.forall_mem_cons

theorem plainLine_cons_of (hunit : unit.isNewline = false) :
    PlainLine (unit :: line) ↔ PlainLine line := by
  rw [plainLine_cons, hunit, eq_self, true_and]

theorem lineSize_cuts (rest : List Symbol) : CutsLine PlainLine rest (lineSize rest) := by
  induction rest with
  | nil => exact .of_plain plainLine_nil
  | cons unit rest ih =>
      cases hunit : unit.isNewline with
      | true =>
          rw [lineSize, if_pos hunit]
          exact .of_newline plainLine_nil (fun hline => (plainLine_cons.1 hline).1) hunit rest
      | false =>
          rw [lineSize, hunit, if_neg Bool.false_ne_true]
          exact ih.cons hunit (plainLine_cons_of hunit)

/-! ## Regular expressions -/

theorem regexpRest_cuts {isEscaped : Bool}
    (h : (PushBack.regexpRest isEscaped rest).closed = false) :
    CutsLine PlainLine rest (PushBack.regexpRest isEscaped rest).size := by
  induction rest generalizing isEscaped with
  | nil =>
      rw [PushBack.regexpRest_nil]
      exact .of_plain plainLine_nil
  | cons unit rest ih =>
      cases hunit : unit.isNewline with
      | true =>
          rw [PushBack.regexpRest_newline isEscaped rest hunit]
          exact .of_newline plainLine_nil (fun hline => (plainLine_cons.1 hline).1) hunit rest
      | false =>
          have hcons : ∀ {line}, PlainLine (unit :: line) ↔ PlainLine line :=
            plainLine_cons_of hunit
          by_cases hbackslash : unit = .char '\\'
          · subst hbackslash
            cases isEscaped with
            | true =>
                rw [regexpRest_escaped] at h ⊢
                exact (ih h).cons hunit hcons
            | false =>
                rw [regexpRest_backslash] at h ⊢
                exact (ih h).cons hunit hcons
          by_cases hslash : unit = .char '/' ∧ isEscaped = false
          · rcases hslash with ⟨rfl, rfl⟩
            rw [PushBack.regexpRest_slash] at h
            cases h
          · rw [PushBack.regexpRest_other isEscaped rest hunit hbackslash hslash] at h ⊢
            exact (ih h).cons hunit hcons

theorem regexpEnd_body (h : RegexpBody body) (behind : List Symbol) :
    (regexpEnd (body ++ .char '/' :: behind)).closed = true ∧
      (regexpEnd (body ++ .char '/' :: behind)).size = body.length + 1 := by
  induction h with
  | nil =>
      rw [List.nil_append, show regexpEnd (.char '/' :: behind) = .close from
        PushBack.regexpRest_slash behind]
      exact ⟨rfl, rfl⟩
  | @single unit rest hunit _ ih =>
      rcases hunit with ⟨hslash, hbackslash, hnewline⟩
      have hend : regexpEnd (unit :: (rest ++ .char '/' :: behind)) =
          (regexpEnd (rest ++ .char '/' :: behind)).after 1 :=
        PushBack.regexpRest_other false _ hnewline hbackslash fun h => hslash h.1
      rw [List.cons_append, hend]
      exact ⟨ih.1, by rw [LiteralEnd.after, ih.2, List.length_cons, Nat.add_comm]⟩
  | @escape unit rest hunit _ ih =>
      have hend : PushBack.escapedEnd (unit :: (rest ++ .char '/' :: behind)) =
          (regexpEnd (rest ++ .char '/' :: behind)).after 1 := by
        rw [PushBack.escapedEnd, hunit, if_neg Bool.false_ne_true]
      rw [List.cons_append, List.cons_append, PushBack.regexpEnd_backslash, hend]
      refine ⟨ih.1, ?_⟩
      show 1 + (1 + (regexpEnd (rest ++ .char '/' :: behind)).size) = _
      rw [ih.2, List.length_cons, List.length_cons]
      omega

theorem body_of_regexpEnd (h : (regexpEnd rest).closed = true) :
    ∃ body behind, RegexpBody body ∧ rest = body ++ .char '/' :: behind := by
  fun_induction regexpEnd rest with
  | case1 => cases h
  | case2 => cases h
  | case3 rest => exact ⟨[], rest, .nil, rfl⟩
  | case4 => cases h
  | case5 => cases h
  | case6 unit rest hnewline _ _ ih =>
      obtain ⟨body, behind, hbody, rfl⟩ := ih h
      exact ⟨_ :: unit :: body, behind, .escape (by simpa using hnewline) hbody, rfl⟩
  | case7 unit rest hnewline hslash hbackslash ih =>
      obtain ⟨body, behind, hbody, rfl⟩ := ih h
      exact ⟨unit :: body, behind, .single ⟨hslash, hbackslash, by simpa using hnewline⟩ hbody, rfl⟩

/-! ## Strings -/

theorem stringEnd_body (hquote : quote ≠ '\\') (h : StringBody multiline quote body)
    (behind : List Symbol) :
    (stringEnd multiline quote (body ++ .char quote :: behind)).closed = true ∧
      (stringEnd multiline quote (body ++ .char quote :: behind)).size = body.length + 1 := by
  induction h with
  | nil =>
      rw [List.nil_append, stringEnd_quote]
      exact ⟨rfl, rfl⟩
  | @single unit rest hunit _ ih =>
      rcases hunit with ⟨hother, hbackslash, hnewline⟩
      have hline : (unit.isNewline && !multiline) = false := by
        cases hunit : unit.isNewline with
        | true => rw [hnewline hunit]; rfl
        | false => rfl
      rw [List.cons_append, stringEnd_other hother hbackslash hline]
      exact ⟨ih.1, by rw [LiteralEnd.after, ih.2, List.length_cons, Nat.add_comm]⟩
  | @escape unit rest _ _ ih =>
      rw [List.cons_append, List.cons_append, stringEnd_backslash hquote]
      refine ⟨ih.1, ?_⟩
      show 1 + (1 + (stringEnd multiline quote (rest ++ .char quote :: behind)).size) = _
      rw [ih.2, List.length_cons, List.length_cons]
      omega

theorem body_of_stringEnd (h : (stringEnd multiline quote rest).closed = true) :
    ∃ body behind, StringBody multiline quote body ∧ rest = body ++ .char quote :: behind := by
  fun_induction stringEnd multiline quote rest with
  | case1 => cases h
  | case2 rest => exact ⟨[], rest, .nil, rfl⟩
  | case3 => cases h
  | case4 unit rest _ ih =>
      obtain ⟨body, behind, hbody, rfl⟩ := ih h
      exact ⟨_ :: unit :: body, behind, .escape trivial hbody, rfl⟩
  | case5 => cases h
  | case6 unit rest hquote hbackslash hnewline ih =>
      obtain ⟨body, behind, hbody, rfl⟩ := ih h
      refine ⟨unit :: body, behind, .single ⟨hquote, hbackslash, fun hunit => ?_⟩ hbody, rfl⟩
      simpa [hunit] using hnewline

theorem escapedLine_single (hbackslash : unit ≠ .char '\\') (hunit : unit.isNewline = false) :
    EscapedLine (unit :: line) ↔ EscapedLine line := by
  constructor
  · intro h
    cases h with
    | single _ h => exact h
    | escape => exact (hbackslash rfl).elim
  · exact fun h => .single ⟨hbackslash, hunit⟩ h

theorem escapedLine_escape : EscapedLine (.char '\\' :: unit :: line) ↔ EscapedLine line := by
  constructor
  · intro h
    cases h with
    | single hunit _ => exact (hunit.1 rfl).elim
    | escape _ h => exact h
  · exact fun h => .escape trivial h

theorem not_escapedLine_backslash : ¬ EscapedLine [.char '\\'] := by
  intro h
  cases h with
  | single hunit _ => exact hunit.1 rfl

theorem isNewline_of_escapedLine (h : EscapedLine (unit :: line)) : unit.isNewline = false := by
  cases h with
  | single hunit _ => exact hunit.2
  | escape => rfl

theorem stringEnd_cuts (h : (stringEnd false quote rest).closed = false) :
    CutsLine EscapedLine rest (stringEnd false quote rest).size := by
  fun_induction stringEnd false quote rest with
  | case1 => exact .of_plain plainLine_nil
  | case2 => cases h
  | case3 => exact .of_plain (plainLine_cons.2 ⟨by decide, plainLine_nil⟩)
  | case4 unit rest _ ih => exact (ih h).escape not_escapedLine_backslash escapedLine_escape
  | case5 unit rest _ _ hnewline =>
      exact .of_newline .nil isNewline_of_escapedLine (by simpa using hnewline) rest
  | case6 unit rest _ hbackslash hnewline ih =>
      have hunit : unit.isNewline = false := by simpa using hnewline
      exact (ih h).cons hunit (escapedLine_single hbackslash hunit)

theorem stringEnd_last (h : (stringEnd true quote rest).closed = false) :
    (stringEnd true quote rest).size = rest.length := by
  fun_induction stringEnd true quote rest with
  | case1 => rfl
  | case2 => cases h
  | case3 => rfl
  | case4 unit rest _ ih =>
      show 2 + _ = _
      rw [ih h, Nat.add_comm]
      rfl
  | case5 unit rest _ _ hnewline => simp at hnewline
  | case6 unit rest _ _ _ ih =>
      show 1 + _ = _
      rw [ih h, Nat.add_comm]
      rfl

/-! ## Block comments -/

theorem blockCommentEnd_le (h : rest = body ++ .char '*' :: .char '/' :: behind) :
    (blockCommentEnd rest).closed = true ∧ (blockCommentEnd rest).size ≤ body.length + 2 := by
  fun_induction blockCommentEnd rest generalizing body with
  | case1 => simp at h
  | case2 => exact ⟨rfl, Nat.le_add_left 2 _⟩
  | case3 unit rest hnot ih =>
      cases body with
      | nil =>
          obtain ⟨hunit, hrest⟩ := List.cons.inj h
          exact (hnot _ hunit hrest).elim
      | cons other body =>
          obtain ⟨hclosed, hsize⟩ := ih (List.cons.inj h).2
          refine ⟨hclosed, ?_⟩
          show 1 + _ ≤ _
          rw [List.length_cons]
          omega

theorem closed_blockCommentEnd (h : (blockCommentEnd rest).closed = true) :
    ∃ body behind, rest = body ++ .char '*' :: .char '/' :: behind ∧
      (blockCommentEnd rest).size = body.length + 2 := by
  fun_induction blockCommentEnd rest with
  | case1 => cases h
  | case2 behind => exact ⟨[], behind, rfl, rfl⟩
  | case3 unit rest _ ih =>
      obtain ⟨body, behind, hrest, hsize⟩ := ih h
      refine ⟨unit :: body, behind, by rw [hrest]; rfl, ?_⟩
      show 1 + _ = _
      rw [hsize, List.length_cons]
      omega

theorem blockCommentEnd_last (h : (blockCommentEnd rest).closed = false) :
    (blockCommentEnd rest).size = rest.length := by
  fun_induction blockCommentEnd rest with
  | case1 => rfl
  | case2 => cases h
  | case3 unit rest _ ih =>
      show 1 + _ = _
      rw [ih h, Nat.add_comm]
      rfl

/-! ## Literals -/

/-- How the rest of a literal is cut behind its opening: it is complete exactly if what is
ahead begins with a body and the closing delimiter, and takes exactly these. -/
structure CutsComplete (InBody : List Symbol → Prop) (closing : Char) (rest : List Symbol)
    (isPartial : Bool) (size : Nat) : Prop where
  complete_iff : isPartial = false ↔
    ∃ body behind, InBody body ∧ rest = body ++ .char closing :: behind
  size_eq : ∀ body behind, InBody body → rest = body ++ .char closing :: behind →
    size = body.length + 1

/-- The rest of a string.  Without its quote it takes its line, or all if lines do not end
strings. -/
structure CutsString (multiline : Bool) (quote : Char) (rest : List Symbol) (isPartial : Bool)
    (size : Nat) : Prop where
  complete : CutsComplete (StringBody multiline quote) quote rest isPartial size
  line : isPartial = true → multiline = false → CutsLine EscapedLine rest size
  last : isPartial = true → multiline = true → size = rest.length

/-- The rest of a regular expression, which takes its line if the slash is missing. -/
structure CutsRegexp (rest : List Symbol) (isPartial : Bool) (size : Nat) : Prop where
  complete : CutsComplete RegexpBody '/' rest isPartial size
  line : isPartial = true → CutsLine PlainLine rest size

structure CutsBlockComment (rest : List Symbol) (isPartial : Bool) (size : Nat) : Prop where
  complete_iff : isPartial = false ↔ [.char '*', .char '/'] <:+: rest
  first : ∀ body behind, rest = body ++ .char '*' :: .char '/' :: behind →
    (∀ other more, rest = other ++ .char '*' :: .char '/' :: more → body.length ≤ other.length) →
    size = body.length + 2
  last : isPartial = true → size = rest.length

theorem stringEnd_cutsString (hquote : quote ≠ '\\') (rest : List Symbol) :
    CutsString multiline quote rest (!(stringEnd multiline quote rest).closed)
      (stringEnd multiline quote rest).size where
  complete := by
    refine ⟨?_, ?_⟩
    · rw [Bool.not_eq_false']
      refine ⟨body_of_stringEnd, ?_⟩
      rintro ⟨body, behind, hbody, rfl⟩
      exact (stringEnd_body hquote hbody behind).1
    · rintro body behind hbody rfl
      exact (stringEnd_body hquote hbody behind).2
  line := by
    rintro hpartial rfl
    exact stringEnd_cuts (by simpa using hpartial)
  last := by
    rintro hpartial rfl
    exact stringEnd_last (by simpa using hpartial)

theorem regexpEnd_cutsRegexp (rest : List Symbol) :
    CutsRegexp rest (!(regexpEnd rest).closed) (regexpEnd rest).size where
  complete := by
    refine ⟨?_, ?_⟩
    · rw [Bool.not_eq_false']
      refine ⟨body_of_regexpEnd, ?_⟩
      rintro ⟨body, behind, hbody, rfl⟩
      exact (regexpEnd_body hbody behind).1
    · rintro body behind hbody rfl
      exact (regexpEnd_body hbody behind).2
  line := by
    intro hpartial
    have hopen : (regexpEnd rest).closed = false := by simpa using hpartial
    show CutsLine PlainLine rest (PushBack.regexpRest false rest).size
    exact regexpRest_cuts hopen

theorem blockCommentEnd_cutsBlockComment (rest : List Symbol) :
    CutsBlockComment rest (!(blockCommentEnd rest).closed) (blockCommentEnd rest).size where
  complete_iff := by
    rw [Bool.not_eq_false']
    constructor
    · intro hclosed
      obtain ⟨body, behind, hrest, -⟩ := closed_blockCommentEnd hclosed
      exact ⟨body, behind, by rw [hrest]; simp⟩
    · rintro ⟨body, behind, hrest⟩
      rw [List.append_assoc] at hrest
      exact (blockCommentEnd_le hrest.symm).1
  first := by
    intro body behind hrest hfirst
    obtain ⟨hclosed, hle⟩ := blockCommentEnd_le hrest
    obtain ⟨other, more, hother, hsize⟩ := closed_blockCommentEnd hclosed
    have := hfirst other more hother
    omega
  last := by
    intro hpartial
    exact blockCommentEnd_last (by simpa using hpartial)

end Symbol

namespace Lexeme

open Manifest.Symbol (CutsString CutsRegexp CutsBlockComment CutsLine PlainLine)

/-- How the row ahead is cut where a literal or a comment begins: `size` units of the kind
`kind`, perhaps without an end. -/
structure Delimits (multiline : Bool) (ahead : List Symbol) (kind : TokenKind)
    (isPartial : Bool) (size : Nat) : Prop where
  string : ∀ quote rest, IsQuote quote → ahead = .char quote :: rest →
    kind = .string ∧ ∃ extra, size = 1 + extra ∧ CutsString multiline quote rest isPartial extra
  regexp : ∀ rest, ahead = .char '/' :: rest → rest.head? ≠ some (.char '*') →
    kind = .regexp ∧ ∃ extra, size = 1 + extra ∧ CutsRegexp rest isPartial extra
  blockComment : ∀ rest, ahead = .char '/' :: .char '*' :: rest →
    kind = .blockComment ∧ ∃ extra, size = 2 + extra ∧ CutsBlockComment rest isPartial extra
  comment : ∀ rest, ahead = .char '#' :: rest →
    kind = .comment ∧ isPartial = false ∧ ∃ extra, size = 1 + extra ∧
      CutsLine PlainLine rest extra
  opening : kind.isLiteral = true →
    ∃ c, ahead.head? = some (.char c) ∧ (IsQuote c ∨ c = '/' ∨ c = '#')

theorem delimits_first (multiline : Bool) (unit : Symbol) (rest : List Symbol) :
    Delimits multiline (unit :: rest) (first multiline unit rest).kind
      (first multiline unit rest).isPartial (first multiline unit rest).size where
  string := by
    rintro quote rest hquote ⟨rfl, rfl⟩
    have hother : quote ≠ '\\' := by
      rcases hquote with rfl | rfl <;> decide
    rw [first, ofChar_quote hquote]
    refine ⟨rfl, _, literal_size _ _ _, Symbol.stringEnd_cutsString hother rest⟩
  regexp := by
    rintro rest ⟨rfl, rfl⟩ hstar
    rw [first, ofChar_slash, PushBack.slash_regexp hstar]
    exact ⟨rfl, _, literal_size _ _ _, Symbol.regexpEnd_cutsRegexp rest⟩
  blockComment := by
    rintro rest ⟨rfl, rfl⟩
    rw [first, ofChar_slash, PushBack.slash_star]
    exact ⟨rfl, _, literal_size _ _ _, Symbol.blockCommentEnd_cutsBlockComment rest⟩
  comment := by
    rintro rest ⟨rfl, rfl⟩
    rw [first, ofChar_hash]
    exact ⟨rfl, rfl, _, Nat.add_comm _ 1, Symbol.lineSize_cuts rest⟩
  opening := by
    intro hkind
    obtain ⟨c, rfl, hc⟩ := opening_of_isLiteral hkind
    exact ⟨c, rfl, hc⟩

end Lexeme

namespace Token

/-- The text that a token covers decodes to `units`, and what is behind it to `rest`. -/
def Takes (source : List Char) (token : Token) (units rest : List Symbol) : Prop :=
  ∃ before own behind, Glyph.decode source = before ++ (own ++ behind) ∧
    Glyph.totalWidth before = token.offset ∧ Glyph.totalWidth (before ++ own) = token.stop ∧
    Glyph.symbols own = units ∧ Glyph.symbols behind = rest

end Token

namespace Lexeme

theorem size_first_le (multiline : Bool) (unit : Symbol) (rest : List Symbol) :
    (first multiline unit rest).size ≤ (unit :: rest).length := by
  obtain ⟨next, more, hjoined⟩ : ∃ next more, Symbol.joinPairs (unit :: rest) = next :: more := by
    apply List.exists_cons_of_ne_nil
    intro hnil
    cases Symbol.joinPairs_eq_nil hnil
  exact (first_alike multiline hjoined).makes.le.1

end Lexeme

namespace TokenStream

variable {multiline : Bool} {source : List Char} {token : Token}

/-- A token is the first lexeme of what is ahead of it, put onto the glyphs that spell it. -/
theorem exists_place (h : token ∈ (lex multiline source).tokens) :
    ∃ before own behind unit rest, Glyph.decode source = before ++ (own ++ behind) ∧
      Glyph.symbols own = (unit :: rest).take (Lexeme.first multiline unit rest).size ∧
      Glyph.symbols behind = (unit :: rest).drop (Lexeme.first multiline unit rest).size ∧
      token = Token.place (Glyph.totalWidth before) own (Lexeme.first multiline unit rest) := by
  rw [lex_eq_lexed] at h
  obtain ⟨placed, hplaced, rfl⟩ := List.mem_map.1 h
  obtain ⟨before, others, hsplit⟩ := List.append_of_mem hplaced
  obtain ⟨here, passed, unit, rest, hglyphs, hstart, hsymbols, rfl, -⟩ :=
    Site.exists_site_of_split hsplit
  have hoffset : here.start = Glyph.totalWidth passed := hstart.trans (Nat.zero_add _)
  have hsymbols' : Glyph.symbols here.glyphs = unit :: rest := hsymbols
  refine ⟨passed, here.glyphs.take (Lexeme.first multiline unit rest).size,
    here.glyphs.drop (Lexeme.first multiline unit rest).size, unit, rest, ?_, ?_, ?_, ?_⟩
  · rw [List.take_append_drop]
    exact hglyphs
  · rw [← hsymbols']
    exact List.map_take
  · rw [← hsymbols']
    exact List.map_drop
  · rw [← hoffset]
    rfl

theorem exists_takes (h : token ∈ (lex multiline source).tokens) :
    ∃ unit rest, token.Takes source
        ((unit :: rest).take (Lexeme.first multiline unit rest).size)
        ((unit :: rest).drop (Lexeme.first multiline unit rest).size) ∧
      token.kind = (Lexeme.first multiline unit rest).kind ∧
      token.flags.isPartial = (Lexeme.first multiline unit rest).isPartial := by
  obtain ⟨before, own, behind, unit, rest, hdecode, hown, hbehind, rfl⟩ := exists_place h
  exact ⟨unit, rest, ⟨before, own, behind, hdecode, rfl, Glyph.totalWidth_append before own,
    hown, hbehind⟩, rfl, rfl⟩

/-- No step of the lexer is refused, and the literals and comments of a text are those of
the grammar. -/
theorem lex_delimits (multiline : Bool) (source : List Char) :
    PushBack.lex multiline source = .ok (lex multiline source) ∧
      ∀ token ∈ (lex multiline source).tokens, ∃ units rest,
        token.Takes source units rest ∧
        Lexeme.Delimits multiline (units ++ rest) token.kind token.flags.isPartial
          units.length := by
  refine ⟨PushBack.lex_eq multiline source, fun token htoken => ?_⟩
  obtain ⟨unit, rest, htakes, hkind, hpartial⟩ := exists_takes htoken
  refine ⟨_, _, htakes, ?_⟩
  rw [List.take_append_drop, List.length_take_of_le (Lexeme.size_first_le multiline unit rest),
    hkind, hpartial]
  exact Lexeme.delimits_first multiline unit rest

/-- A string with an escaped quote, and a regular expression that its line breaks off. -/
def writtenLiterals : List Char :=
  ['\'', '\\', '\'', 'a', '\'', '/', 'b', '\r', '\n', '#', 'c']

theorem lex_delimits_writtenLiterals :
    ∃ string ∈ (lex false writtenLiterals).tokens, ∃ regexp ∈ (lex false writtenLiterals).tokens,
      (string.offset = 0 ∧ string.stop = 5 ∧ ∃ units rest,
        string.Takes writtenLiterals units rest ∧
          Lexeme.Delimits false (units ++ rest) .string false units.length) ∧
      (regexp.offset = 5 ∧ regexp.stop = 9 ∧ ∃ units rest,
        regexp.Takes writtenLiterals units rest ∧
          Lexeme.Delimits false (units ++ rest) .regexp true units.length) := by
  have hstring : ∃ token ∈ (lex false writtenLiterals).tokens, token.kind = .string ∧
      token.flags.isPartial = false ∧ token.offset = 0 ∧ token.stop = 5 := by
    decide +kernel
  have hregexp : ∃ token ∈ (lex false writtenLiterals).tokens, token.kind = .regexp ∧
      token.flags.isPartial = true ∧ token.offset = 5 ∧ token.stop = 9 := by
    decide +kernel
  obtain ⟨string, hmem, hkind, hpartial, hstart, hstop⟩ := hstring
  obtain ⟨regexp, hmem', hkind', hpartial', hstart', hstop'⟩ := hregexp
  have hdelimits := (lex_delimits false writtenLiterals).2 string hmem
  have hdelimits' := (lex_delimits false writtenLiterals).2 regexp hmem'
  rw [hkind, hpartial] at hdelimits
  rw [hkind', hpartial'] at hdelimits'
  exact ⟨string, hmem, regexp, hmem', ⟨hstart, hstop, hdelimits⟩, hstart', hstop', hdelimits'⟩

end TokenStream

end Manifest
