import Manifest.Proofs.Lexing.Reports

/-!
# Strings over line breaks

Whether strings go on over line breaks matters to no token before the first string that lacks
its quote where they do not.  Up to that string both ways of lexing give the same tokens and
the same reports, and where there is none they are the same throughout.
-/

namespace Manifest

/-! ## Closed strings -/

namespace Symbol

/-- A string that closes before its line breaks is the same string where strings go on. -/
theorem stringEnd_multiline {quote : Char} {rest : List Symbol}
    (h : (stringEnd false quote rest).closed = true) :
    stringEnd true quote rest = stringEnd false quote rest := by
  fun_induction stringEnd false quote rest with
  | case1 => cases h
  | case2 rest =>
      rw [stringEnd.eq_def]
      exact if_pos rfl
  | case3 => cases h
  | case4 next rest hquote ih =>
      have hrest : stringEnd true quote rest = stringEnd false quote rest := ih h
      rw [stringEnd.eq_def]
      dsimp only
      rw [if_neg hquote, if_pos rfl, hrest]
  | case5 => cases h
  | case6 symbol rest hquote hbackslash hbreak ih =>
      have hrest : stringEnd true quote rest = stringEnd false quote rest := ih h
      rw [stringEnd.eq_def]
      dsimp only
      rw [if_neg hquote, if_neg hbackslash, hrest, if_neg (by simp)]

end Symbol

namespace Lexeme

def isOpenString (lexeme : Lexeme) : Bool :=
  lexeme.kind == .string && lexeme.isPartial

variable {c : Char} {unit : Symbol} {rest : List Symbol}

theorem ofChar_quote (hquote : c = '\'' ∨ c = '"') (multiline : Bool) (rest : List Symbol) :
    ofChar multiline c rest = literal .string 0 (Symbol.stringEnd multiline c rest) := by
  rcases hquote with rfl | rfl <;> rfl

theorem ofChar_multiline (hquote : ¬ (c = '\'' ∨ c = '"')) (rest : List Symbol) :
    ofChar true c rest = ofChar false c rest := by
  unfold ofChar
  rw [if_neg hquote, if_neg hquote]

/-- Where strings go on over line breaks, only a string without its quote may go on. -/
theorem first_multiline (h : (first false unit rest).isOpenString = false) :
    first true unit rest = first false unit rest := by
  cases unit with
  | char c =>
      show ofChar true c rest = ofChar false c rest
      have hfirst : (ofChar false c rest).isOpenString = false := h
      by_cases hquote : c = '\'' ∨ c = '"'
      · rw [ofChar_quote hquote] at hfirst ⊢
        have hclosed : (Symbol.stringEnd false c rest).closed = true := by
          simpa [isOpenString, literal] using hfirst
        rw [ofChar_quote hquote, Symbol.stringEnd_multiline hclosed]
      · exact ofChar_multiline hquote rest
  | high bits => cases rest with
      | nil => rfl
      | cons next rest => cases next <;> rfl
  | low bits => rfl

end Lexeme

/-! ## Tokens before an open string -/

/-- Whether the token is a string without its quote. -/
def Token.isOpenString (token : Token) : Bool :=
  token.kind == .string && token.flags.isPartial

namespace Site

/-- From a site on, both ways of lexing give the same tokens up to an open string. -/
theorem lexed_multiline (site : Site) :
    ∃ common behind behind', site.lexed false = common ++ behind ∧
      site.lexed true = common ++ behind' ∧
      (∀ placed ∈ common, placed.token.isOpenString = false) ∧
      ((behind = [] ∧ behind' = []) ∨
        ∃ placed others, behind = placed :: others ∧ placed.token.isOpenString = true) := by
  induction hcount : site.glyphs.length using Nat.strongRecOn generalizing site with
  | ind count ih =>
      cases hsymbols : site.symbols with
      | nil =>
          refine ⟨[], [], [], ?_, ?_, List.forall_mem_nil _, .inl ⟨rfl, rfl⟩⟩
          · exact site.lexed_nil hsymbols
          · exact site.lexed_nil hsymbols
      | cons unit rest =>
          rw [site.lexed_cons hsymbols, site.lexed_cons hsymbols]
          cases hopen : (site.firstToken false unit rest).token.isOpenString with
          | true =>
              exact ⟨[], _, _, rfl, rfl, List.forall_mem_nil _, .inr ⟨_, _, rfl, hopen⟩⟩
          | false =>
              have hfirst : Lexeme.first true unit rest = Lexeme.first false unit rest :=
                Lexeme.first_multiline hopen
              have hshorter := site.length_glyphs_after false hsymbols
              obtain ⟨common, behind, behind', hplain, hmulti, hclosed, hends⟩ :=
                ih _ (by omega) (site.behind false unit rest) rfl
              refine ⟨site.firstToken false unit rest :: common, behind, behind', ?_, ?_,
                List.forall_mem_cons.2 ⟨hopen, hclosed⟩, hends⟩
              · rw [hplain, List.cons_append]
              · unfold firstToken Site.behind at *
                rw [hfirst, hmulti, List.cons_append]

end Site

/-! ## Texts with and without open strings -/

namespace TokenStream

open List (Forall₂)

theorem tokens_ofLexed_append (common behind : List LexedToken) :
    (ofLexed (common ++ behind)).tokens =
      common.map LexedToken.token ++ behind.map LexedToken.token :=
  List.map_append

theorem diagnostics_ofLexed_append (common behind : List LexedToken) :
    (ofLexed (common ++ behind)).diagnostics =
      common.filterMap LexedToken.diagnostic? ++ behind.filterMap LexedToken.diagnostic? :=
  List.filterMap_append

/-- The first open string, or the end of the tokens, stands behind what both ways have in
common. -/
theorem findIdx_isOpenString {common behind : List LexedToken}
    (hclosed : ∀ placed ∈ common, placed.token.isOpenString = false)
    (hends : behind = [] ∨
      ∃ placed others, behind = placed :: others ∧ placed.token.isOpenString = true) :
    (ofLexed (common ++ behind)).tokens.findIdx Token.isOpenString = common.length := by
  induction common with
  | nil =>
      rcases hends with rfl | ⟨placed, others, rfl, hopen⟩
      · rfl
      · show List.findIdx _ (placed.token :: _) = 0
        rw [List.findIdx_cons, hopen]
        rfl
  | cons placed common ih =>
      obtain ⟨hplaced, hcommon⟩ := List.forall_mem_cons.1 hclosed
      show List.findIdx _ (placed.token :: (ofLexed (common ++ behind)).tokens) = _
      rw [List.findIdx_cons, hplaced, ih hcommon]
      rfl

/-- Before the first string that lacks its quote where strings end with the line, both ways of
lexing give the same tokens and the same reports about them; where there is no such string,
they give the same. -/
theorem lex_multiline (source : List Char) :
    let plain : TokenStream := lex false source
    let multi : TokenStream := lex true source
    let count := plain.tokens.findIdx Token.isOpenString
    multi.tokens.take count = plain.tokens.take count ∧
      (∃ reports behind behind',
        plain.diagnostics = reports ++ behind ∧ multi.diagnostics = reports ++ behind' ∧
        Forall₂ Token.ReportedBy ((plain.tokens.take count).filter Token.isFaulty) reports ∧
        Forall₂ Token.ReportedBy ((plain.tokens.drop count).filter Token.isFaulty) behind ∧
        Forall₂ Token.ReportedBy ((multi.tokens.drop count).filter Token.isFaulty) behind') ∧
      ((∀ token ∈ plain.tokens, token.isOpenString = false) → multi = plain) := by
  obtain ⟨common, behind, behind', hplain, hmulti, hclosed, hends⟩ :=
    (Site.ofText source).lexed_multiline
  have hreported : ∀ placed ∈ common ++ behind, placed.Reported :=
    hplain ▸ Site.reported_lexed _ false
  have hreported' : ∀ placed ∈ common ++ behind', placed.Reported :=
    hmulti ▸ Site.reported_lexed _ true
  have hsplit := List.forall_mem_append.1 hreported
  have hsplit' := List.forall_mem_append.1 hreported'
  intro plain multi count
  have hplainEq : plain = ofLexed (common ++ behind) := congrArg ofLexed hplain
  have hmultiEq : multi = ofLexed (common ++ behind') := congrArg ofLexed hmulti
  have hcount : count = (common.map LexedToken.token).length := by
    rw [List.length_map, ← findIdx_isOpenString hclosed (hends.imp_left And.left), ← hplainEq]
  rw [hcount, hplainEq, hmultiEq, tokens_ofLexed_append, tokens_ofLexed_append, List.take_left,
    List.take_left, List.drop_left, List.drop_left, diagnostics_ofLexed_append,
    diagnostics_ofLexed_append]
  refine ⟨rfl, ⟨_, _, _, rfl, rfl, LexedToken.forall₂_reportedBy hsplit.1,
    LexedToken.forall₂_reportedBy hsplit.2, LexedToken.forall₂_reportedBy hsplit'.2⟩,
    fun hnone => ?_⟩
  rcases hends with ⟨rfl, rfl⟩ | ⟨placed, others, rfl, hopen⟩
  · rfl
  · have hfalse := hnone placed.token (by simp)
    rw [hopen] at hfalse
    cases hfalse

def escapedBreak : List Char :=
  ['"', 'a', '\\', '\n', 'b', '"']

/-- The backslash keeps the string together where strings end with the line, too. -/
theorem lex_multiline_escapedBreak :
    (∀ token ∈ (lex false escapedBreak).tokens, token.isOpenString = false) ∧
      (lex false escapedBreak).tokens.length = 1 ∧
      lex true escapedBreak = lex false escapedBreak := by
  have hclosed : ∀ token ∈ (lex false escapedBreak).tokens, token.isOpenString = false := by
    decide +kernel
  exact ⟨hclosed, by decide +kernel, (lex_multiline escapedBreak).2.2 hclosed⟩

end TokenStream

end Manifest
