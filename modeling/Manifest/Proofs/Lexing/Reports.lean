import Mathlib.Data.List.Forall2
import Manifest.Proofs.Lexing.Tiling

/-!
# What the lexer reports

The reports of the lexer follow its tokens: one for each literal without its end and
one for each character that begins no token.  A literal goes without its end only at a
line break or at the end of the text.
-/

namespace Manifest

open Manifest.Symbol (lineBreakSize stringEnd regexpEnd blockCommentEnd)

/-! ## Where literals are given up -/

/-- The stretch takes all that is left, or its last symbol breaks the line. -/
def Symbol.GivenUpAt (size : Nat) (symbols : List Symbol) : Prop :=
  symbols.drop size = [] ∨
    ∃ before last, symbols.take size = before ++ [last] ∧ last.isNewline = true

namespace Symbol

variable {symbol : Symbol} {rest : List Symbol} {size : Nat}

theorem GivenUpAt.after (symbols : List Symbol) (count : Nat)
    (h : GivenUpAt size (symbols.drop count)) : GivenUpAt (count + size) symbols := by
  rcases h with hend | ⟨before, last, htake, hbreak⟩
  · rw [List.drop_drop] at hend
    exact Or.inl hend
  · refine Or.inr ⟨symbols.take count ++ before, last, ?_, hbreak⟩
    rw [List.take_add, htake, List.append_assoc]

theorem givenUpAt_lineBreak (h : symbol.isNewline = true) :
    GivenUpAt (lineBreakSize (symbol :: rest)) (symbol :: rest) := by
  rcases (PushBack.isNewline_iff symbol).1 h with rfl | rfl
  · rw [PushBack.lineBreakSize_feed]
    exact Or.inr ⟨[], .char '\n', rfl, rfl⟩
  · match rest with
    | [] => exact Or.inr ⟨[], .char '\r', rfl, rfl⟩
    | next :: rest =>
        unfold lineBreakSize
        split
        · rename_i heq
          cases heq
          exact Or.inr ⟨[.char '\r'], .char '\n', rfl, rfl⟩
        · exact Or.inr ⟨[], .char '\r', rfl, rfl⟩
        · exact Or.inr ⟨[], .char '\r', rfl, rfl⟩
        · rename_i hreturn _
          exact (hreturn _ rfl).elim

theorem givenUpAt_stringEnd {multiline : Bool} {quote : Char}
    (h : (stringEnd multiline quote rest).closed = false) :
    GivenUpAt (stringEnd multiline quote rest).size rest := by
  fun_induction stringEnd multiline quote rest with
  | case1 => exact Or.inl rfl
  | case2 => cases h
  | case3 => exact Or.inl rfl
  | case4 next rest _ ih => exact (ih h).after (_ :: next :: rest) 2
  | case5 symbol rest _ _ hbreak => exact givenUpAt_lineBreak (Bool.and_eq_true_iff.1 hbreak).1
  | case6 symbol rest _ _ _ ih => exact (ih h).after (symbol :: rest) 1

theorem givenUpAt_regexpEnd (h : (regexpEnd rest).closed = false) :
    GivenUpAt (regexpEnd rest).size rest := by
  fun_induction regexpEnd rest with
  | case1 => exact Or.inl rfl
  | case2 symbol rest hbreak => exact givenUpAt_lineBreak hbreak
  | case3 => cases h
  | case4 => exact Or.inl rfl
  | case5 next rest hbreak =>
      exact (givenUpAt_lineBreak hbreak).after (_ :: next :: rest) 1
  | case6 next rest _ _ _ ih => exact (ih h).after (_ :: next :: rest) 2
  | case7 symbol rest _ _ _ ih => exact (ih h).after (symbol :: rest) 1

/-- A block comment goes without its end only where the text ends. -/
theorem drop_blockCommentEnd (h : (blockCommentEnd rest).closed = false) :
    rest.drop (blockCommentEnd rest).size = [] := by
  fun_induction blockCommentEnd rest with
  | case1 => rfl
  | case2 => cases h
  | case3 symbol rest _ ih =>
      show (symbol :: rest).drop (1 + _) = []
      rw [Nat.add_comm 1, List.drop_succ_cons]
      exact ih h

end Symbol

/-! ## Faulty lexemes -/

def TokenKind.IsDelimited (kind : TokenKind) : Prop :=
  kind = .string ∨ kind = .regexp ∨ kind = .blockComment

/-- What is reported of a token of the kind whose end is missing, or that is no token. -/
def TokenKind.fault? : TokenKind → Option Finding
  | .string => some .unterminatedString
  | .regexp => some .unterminatedRegexp
  | .blockComment => some .unterminatedComment
  | .error => some .invalidCharacter
  | _ => none

theorem TokenKind.severity_of_fault {kind : TokenKind} {finding : Finding}
    (h : kind.fault? = some finding) : finding.severity = .error := by
  unfold fault? at h
  split at h
  · obtain rfl := Option.some.inj h
    rfl
  · obtain rfl := Option.some.inj h
    rfl
  · obtain rfl := Option.some.inj h
    rfl
  · obtain rfl := Option.some.inj h
    rfl
  · cases h

namespace Lexeme

/-- Whether the lexeme lacks its end, or is none. -/
def isFaulty (lexeme : Lexeme) : Bool :=
  lexeme.isPartial || lexeme.kind == .error

/-- The lexeme is a delimited literal if it lacks its end, and lacks it for a reason. -/
structure OpenOnly (symbols : List Symbol) (lexeme : Lexeme) : Prop where
  delimited : lexeme.isPartial = true → lexeme.kind.IsDelimited
  givenUp : lexeme.isPartial = true → Symbol.GivenUpAt lexeme.size symbols
  comment_end : lexeme.isPartial = true → lexeme.kind = .blockComment →
    symbols.drop lexeme.size = []

theorem openOnly_of_complete {lexeme : Lexeme} (h : lexeme.isPartial = false)
    (symbols : List Symbol) : lexeme.OpenOnly symbols := by
  constructor
  all_goals
    intro hpartial
    rw [h] at hpartial
    cases hpartial

/-- An operator has all of its end, and no backslash in it. -/
theorem whole_operatorFrom (spelling : List Char) (kind : TokenKind) (rest : List Symbol) :
    (operatorFrom spelling kind rest).isPartial = false ∧
      (operatorFrom spelling kind rest).hasEscape = false := by
  fun_induction operatorFrom spelling kind rest with
  | case1 spelling kind c rest longer _ lexeme ih => exact ih
  | case2 => exact ⟨rfl, rfl⟩
  | case3 => exact ⟨rfl, rfl⟩

theorem whole_word (symbol : Symbol) (rest : List Symbol) :
    (word symbol rest).isPartial = false ∧ (word symbol rest).hasEscape = false := by
  unfold word
  split
  · split <;> exact ⟨rfl, rfl⟩
  · exact ⟨rfl, rfl⟩

theorem literal_size (kind : TokenKind) (opening : Nat) (ending : LiteralEnd) :
    (literal kind opening ending).size = opening + 1 + ending.size := by
  show opening + ending.size + 1 = _
  omega

theorem openOnly_slash (rest : List Symbol) :
    (slash rest).OpenOnly (.char '/' :: rest) := by
  unfold slash
  split
  · rename_i rest
    have hend : (literal .blockComment 1 (blockCommentEnd rest)).isPartial = true →
        (Symbol.char '/' :: .char '*' :: rest).drop
          (literal .blockComment 1 (blockCommentEnd rest)).size = [] := by
      intro hopen
      have hrest := Symbol.drop_blockCommentEnd (by simpa [literal] using hopen)
      rw [literal_size, ← List.drop_drop]
      exact hrest
    exact ⟨fun _ => Or.inr (Or.inr rfl), fun hopen => Or.inl (hend hopen),
      fun hopen _ => hend hopen⟩
  · refine ⟨fun _ => Or.inr (Or.inl rfl), fun hopen => ?_, fun _ hkind => by cases hkind⟩
    rw [literal_size]
    exact (Symbol.givenUpAt_regexpEnd (by simpa [literal] using hopen)).after
      (_ :: _) 1

theorem openOnly_string (multiline : Bool) (c : Char) (rest : List Symbol) :
    (literal .string 0 (stringEnd multiline c rest)).OpenOnly (.char c :: rest) := by
  refine ⟨fun _ => Or.inl rfl, fun hopen => ?_, fun _ hkind => by cases hkind⟩
  rw [literal_size]
  exact (Symbol.givenUpAt_stringEnd (by simpa [literal] using hopen)).after
    (_ :: _) 1

theorem openOnly_ofChar (multiline : Bool) (c : Char) :
    ∀ rest, (ofChar multiline c rest).OpenOnly (.char c :: rest) := by
  apply ofChar_cases multiline c
    (motive := fun lexeme => ∀ rest, (lexeme rest).OpenOnly (.char c :: rest))
  case hstring => exact fun _ rest => openOnly_string multiline c rest
  case hslash =>
    rintro rfl rest
    exact openOnly_slash rest
  case hoperator =>
    exact fun kind _ rest => openOnly_of_complete (whole_operatorFrom [c] kind rest).1 _
  case hword =>
    exact fun _ rest => openOnly_of_complete (whole_word (.char c) rest).1 _
  all_goals
    intros
    exact openOnly_of_complete rfl _

theorem openOnly_first (multiline : Bool) (symbol : Symbol) (rest : List Symbol) :
    (first multiline symbol rest).OpenOnly (symbol :: rest) := by
  apply first_cases multiline symbol rest
    (motive := fun lexeme => lexeme.OpenOnly (symbol :: rest))
  case hchar =>
    rintro c rfl
    exact openOnly_ofChar multiline c rest
  all_goals exact fun extra => openOnly_of_complete rfl _

/-- Exactly the faulty lexemes are reported, each by its kind. -/
theorem finding?_eq {lexeme : Lexeme}
    (h : lexeme.isPartial = true → lexeme.kind.IsDelimited) :
    lexeme.finding? = if lexeme.isFaulty then lexeme.kind.fault? else none := by
  rcases lexeme with ⟨kind, extra, isPartial, hasEscape⟩
  cases isPartial with
  | true => rcases h rfl with rfl | rfl | rfl <;> rfl
  | false => cases kind <;> rfl

/-- There is something to report of each faulty lexeme. -/
theorem exists_fault {lexeme : Lexeme} (hfaulty : lexeme.isFaulty = true)
    (h : lexeme.isPartial = true → lexeme.kind.IsDelimited) :
    ∃ finding, lexeme.kind.fault? = some finding := by
  rcases Bool.or_eq_true_iff.1 hfaulty with hopen | herror
  · rcases h hopen with hkind | hkind | hkind <;> rw [hkind] <;> exact ⟨_, rfl⟩
  · rw [eq_of_beq herror]
    exact ⟨_, rfl⟩

end Lexeme

/-! ## Faulty tokens -/

namespace Token

def isFaulty (token : Token) : Bool :=
  token.flags.isPartial || token.kind == .error

/-- The report is the one about the token: what its kind gives rise to, at its range. -/
def ReportedBy (token : Token) (diagnostic : Diagnostic) : Prop :=
  ∃ finding, token.kind.fault? = some finding ∧
    diagnostic = Diagnostic.of finding token.range none

theorem ReportedBy.start_eq {token : Token} {diagnostic : Diagnostic}
    (h : token.ReportedBy diagnostic) : diagnostic.start = token.offset := by
  obtain ⟨finding, -, rfl⟩ := h
  rfl

/-- The last unit of the token is a line break, as the text decodes. -/
def EndsLine (source : List Char) (token : Token) : Prop :=
  ∃ before glyph behind, Glyph.decode source = before ++ glyph :: behind ∧
    token.offset ≤ Glyph.totalWidth before ∧
    Glyph.totalWidth before + glyph.width = token.stop ∧
    glyph.symbol.isNewline = true

/-- The token breaks off for a reason: it is a delimited literal, and the text or the line ends
with it; a block comment ends with the text only. -/
structure BreaksOff (source : List Char) (behind : List Token) (token : Token) : Prop where
  delimited : token.kind.IsDelimited
  ends : behind = [] ∨ token.EndsLine source
  comment_last : token.kind = .blockComment → behind = []

end Token

namespace LexedToken

structure Reported (placed : LexedToken) : Prop where
  none_of_sound : placed.token.isFaulty = false → placed.diagnostic? = none
  some_of_faulty : placed.token.isFaulty = true →
    ∃ diagnostic, placed.diagnostic? = some diagnostic ∧ placed.token.ReportedBy diagnostic

theorem Reported.reportedBy {placed : LexedToken} {diagnostic : Diagnostic} (h : placed.Reported)
    (hsome : placed.diagnostic? = some diagnostic) : placed.token.ReportedBy diagnostic := by
  cases hfaulty : placed.token.isFaulty with
  | false =>
      rw [h.none_of_sound hfaulty] at hsome
      cases hsome
  | true =>
      obtain ⟨found, hfound, hreported⟩ := h.some_of_faulty hfaulty
      obtain rfl : found = diagnostic := Option.some.inj (hfound.symm.trans hsome)
      exact hreported

theorem reported_place (offset : Nat) (glyphs : List Glyph) {lexeme : Lexeme}
    (h : lexeme.isPartial = true → lexeme.kind.IsDelimited) :
    (place offset glyphs lexeme).Reported := by
  have hreport : (place offset glyphs lexeme).diagnostic? = lexeme.finding?.map fun finding =>
      Diagnostic.of finding (place offset glyphs lexeme).token.range none := rfl
  rw [Lexeme.finding?_eq h] at hreport
  constructor
  · intro hsound
    have hlexeme : lexeme.isFaulty = false := hsound
    rw [hreport, hlexeme]
    rfl
  · intro hfaulty
    have hlexeme : lexeme.isFaulty = true := hfaulty
    obtain ⟨finding, hfinding⟩ := Lexeme.exists_fault hlexeme h
    rw [hreport, hlexeme, if_pos rfl, hfinding]
    exact ⟨_, rfl, finding, hfinding, rfl⟩

/-- The reports are those of the faulty tokens, in their order. -/
theorem forall₂_reportedBy {lexed : List LexedToken} (h : ∀ placed ∈ lexed, placed.Reported) :
    List.Forall₂ Token.ReportedBy ((lexed.map token).filter Token.isFaulty)
      (lexed.filterMap diagnostic?) := by
  induction lexed with
  | nil => exact List.Forall₂.nil
  | cons placed lexed ih =>
      obtain ⟨hplaced, hlexed⟩ := List.forall_mem_cons.1 h
      cases hfaulty : placed.token.isFaulty with
      | false =>
          rw [List.map_cons, List.filter_cons_of_neg (by simp [hfaulty]),
            List.filterMap_cons_none (hplaced.none_of_sound hfaulty)]
          exact ih hlexed
      | true =>
          obtain ⟨diagnostic, hsome, hreported⟩ := hplaced.some_of_faulty hfaulty
          rw [List.map_cons, List.filter_cons_of_pos hfaulty, List.filterMap_cons_some hsome]
          exact List.Forall₂.cons hreported (ih hlexed)

end LexedToken

namespace Site

variable {site : Site} {multiline : Bool} {before others : List LexedToken} {placed : LexedToken}

theorem exists_site_of_split (h : site.lexed multiline = before ++ placed :: others) :
    ∃ (here : Site) (passed : List Glyph) (unit : Symbol) (rest : List Symbol),
      site.glyphs = passed ++ here.glyphs ∧
      here.start = site.start + Glyph.totalWidth passed ∧
      here.symbols = unit :: rest ∧
      placed = here.firstToken multiline unit rest ∧
      others = (here.behind multiline unit rest).lexed multiline := by
  induction before generalizing site with
  | nil =>
      cases hsymbols : site.symbols with
      | nil =>
          rw [site.lexed_nil hsymbols] at h
          cases h
      | cons unit rest =>
          rw [site.lexed_cons hsymbols] at h
          obtain ⟨hplaced, hothers⟩ := List.cons.inj h
          exact ⟨site, [], unit, rest, rfl, rfl, hsymbols, hplaced.symm, hothers.symm⟩
  | cons first before ih =>
      cases hsymbols : site.symbols with
      | nil =>
          rw [site.lexed_nil hsymbols] at h
          cases h
      | cons unit rest =>
          rw [site.lexed_cons hsymbols] at h
          obtain ⟨here, passed, unit', rest', hglyphs, hstart, hhere⟩ := ih (List.cons.inj h).2
          refine ⟨here, site.glyphs.take (Lexeme.first multiline unit rest).size ++ passed,
            unit', rest', ?_, ?_, hhere⟩
          · unfold Site.behind at hglyphs
            rw [glyphs_after] at hglyphs
            rw [List.append_assoc, ← hglyphs, List.take_append_drop]
          · rw [hstart, Glyph.totalWidth_append, ← Nat.add_assoc]
            rfl

theorem reported_lexed (site : Site) (multiline : Bool) :
    ∀ placed ∈ site.lexed multiline, placed.Reported := by
  intro placed hmem
  obtain ⟨before, others, hsplit⟩ := List.append_of_mem hmem
  obtain ⟨here, passed, unit, rest, -, -, -, rfl, -⟩ := exists_site_of_split hsplit
  exact LexedToken.reported_place _ _ (Lexeme.openOnly_first multiline unit rest).delimited

/-- What a literal gives up at is the end of the text or a line break in it. -/
theorem nil_or_endsLine {source : List Char} {passed : List Glyph} {unit : Symbol}
    {rest : List Symbol} (hglyphs : Glyph.decode source = passed ++ site.glyphs)
    (hstart : site.start = Glyph.totalWidth passed) (hsymbols : site.symbols = unit :: rest)
    (h : Symbol.GivenUpAt (Lexeme.first multiline unit rest).size (unit :: rest)) :
    (site.behind multiline unit rest).lexed multiline = [] ∨
      (site.firstToken multiline unit rest).token.EndsLine source := by
  rw [← hsymbols] at h
  rcases h with hend | ⟨units, last, htake, hbreak⟩
  · refine Or.inl (lexed_nil _ ?_)
    unfold Site.behind
    rw [symbols_after, hend]
  · rw [← PushBack.symbols_take] at htake
    obtain ⟨glyphs, tail, hown, hunits, htail⟩ := List.map_eq_append_iff.1 htake
    obtain ⟨glyph, rfl, rfl⟩ := List.map_eq_singleton_iff.1 htail
    refine Or.inr ⟨passed ++ glyphs, glyph,
      site.glyphs.drop (Lexeme.first multiline unit rest).size, ?_, ?_, ?_, hbreak⟩
    · conv => lhs; rw [hglyphs, ← List.take_append_drop _ site.glyphs, hown]
      simp
    · show site.start ≤ _
      rw [hstart, Glyph.totalWidth_append]
      exact Nat.le_add_right _ _
    · show _ = site.start + Glyph.totalWidth (site.glyphs.take _)
      rw [hown, hstart, Glyph.totalWidth_append, Glyph.totalWidth_append, Glyph.totalWidth_cons,
        Glyph.totalWidth_nil, Nat.add_assoc, Nat.add_zero]

end Site

namespace TokenStream

theorem breaksOff_of_split {multiline : Bool} {source : List Char} {token : Token}
    {before behind : List Token} (h : (lex multiline source).tokens = before ++ token :: behind)
    (hpartial : token.flags.isPartial = true) : token.BreaksOff source behind := by
  rw [lex_eq_lexed] at h
  obtain ⟨first, tail, hlexed, rfl, htail⟩ := List.map_eq_append_iff.1 h
  obtain ⟨placed, others, rfl, rfl, rfl⟩ := List.map_eq_cons_iff.1 htail
  obtain ⟨here, passed, unit, rest, hglyphs, hstart, hsymbols, rfl, rfl⟩ :=
    Site.exists_site_of_split hlexed
  have hopen := Lexeme.openOnly_first multiline unit rest
  have hstart' : here.start = Glyph.totalWidth passed := hstart.trans (Nat.zero_add _)
  refine ⟨hopen.delimited hpartial, ?_, fun hkind => ?_⟩
  · rcases Site.nil_or_endsLine hglyphs hstart' hsymbols (hopen.givenUp hpartial) with hnil | hline
    · exact Or.inl (List.map_eq_nil_iff.2 hnil)
    · exact Or.inr hline
  · have hend := hopen.comment_end hpartial hkind
    have hnil : (here.behind multiline unit rest).symbols = [] := by
      unfold Site.behind
      rw [Site.symbols_after, hsymbols, hend]
    rw [Site.lexed_nil _ hnil]
    rfl

theorem reportedBy_lex (multiline : Bool) (source : List Char) :
    List.Forall₂ Token.ReportedBy ((lex multiline source).tokens.filter Token.isFaulty)
      (lex multiline source).diagnostics := by
  rw [lex_eq_lexed]
  exact LexedToken.forall₂_reportedBy (Site.reported_lexed _ multiline)

/-- The lexer reports the faulty tokens, each once and in their order, and a token goes without
its end for a reason. -/
theorem lex_reports_faulty (multiline : Bool) (source : List Char) :
    List.Forall₂ Token.ReportedBy ((lex multiline source).tokens.filter Token.isFaulty)
        (lex multiline source).diagnostics ∧
      ∀ before token behind, (lex multiline source).tokens = before ++ token :: behind →
        token.flags.isPartial = true → token.BreaksOff source behind :=
  ⟨reportedBy_lex multiline source, fun _ _ _ => breaksOff_of_split⟩

def openString : List Char :=
  ['\'', 'a', '\n', 'b']

/-- The string lacks its quote although a token follows, as its last unit breaks the line. -/
theorem lex_reports_faulty_openString :
    ∃ token name, (lex false openString).tokens = [] ++ token :: [name] ∧
      token.flags.isPartial = true ∧ token.kind = .string ∧ token.EndsLine openString := by
  have htokens : (lex false openString).tokens.length = 2 := by decide +kernel
  obtain ⟨token, name, hsplit⟩ := List.length_eq_two.1 htokens
  have hfirst : ∀ first ∈ (lex false openString).tokens.head?,
      first.flags.isPartial = true ∧ first.kind = .string := by
    decide +kernel
  rw [hsplit] at hfirst
  obtain ⟨hpartial, hkind⟩ := hfirst token rfl
  refine ⟨token, name, hsplit, hpartial, hkind, ?_⟩
  have hbreaks := (lex_reports_faulty false openString).2 [] token [name] hsplit hpartial
  exact hbreaks.ends.resolve_left (List.cons_ne_nil name [])

end TokenStream

end Manifest
