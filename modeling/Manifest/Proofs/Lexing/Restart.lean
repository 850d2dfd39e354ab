import Manifest.Proofs.Lexing.Reports

/-!
# Lexing from the middle of a text

A lexer that begins anew where a token begins gives the tokens and the reports that are
left, all of them as much earlier as the text before is long.  What it has read ahead for
one token is not known to the next one, and at the end of the text it stays.
-/

namespace Manifest

def TextRange.shift (count : Nat) (range : TextRange) : TextRange :=
  ⟨range.start + count, range.stop + count, Nat.add_le_add_right range.start_le_stop count⟩

def Token.shift (count : Nat) (token : Token) : Token :=
  { token with range := token.range.shift count }

def Diagnostic.shift (count : Nat) (diagnostic : Diagnostic) : Diagnostic :=
  { diagnostic with range := diagnostic.range.shift count }

namespace TokenStream

def shift (count : Nat) (stream : TokenStream) : TokenStream :=
  ⟨stream.tokens.map (Token.shift count), stream.diagnostics.map (Diagnostic.shift count)⟩

/-- The tokens and the reports that begin at a place or behind it. -/
def startingAt (place : Nat) (stream : TokenStream) : TokenStream :=
  ⟨stream.tokens.filter fun token => decide (place ≤ token.offset),
    stream.diagnostics.filter fun diagnostic => decide (place ≤ diagnostic.start)⟩

/-- The place is the beginning of the text, or the end of a token. -/
def IsBoundary (stream : TokenStream) (place : Nat) : Prop :=
  place = 0 ∨ ∃ token ∈ stream.tokens, token.stop = place

end TokenStream

namespace PushBack

/-- What a reader answers when it is asked for a token a number of times. -/
def answers (multiline : Bool) : Nat → Reader → Except LexFault (List (Option LexedToken))
  | 0, _ => .ok []
  | count + 1, reader => do
      let (lexed?, reader) ← next multiline reader
      return lexed? :: (← answers multiline count reader)

end PushBack

/-! ## Lexemes further on -/

namespace LexedToken

def shift (count : Nat) (placed : LexedToken) : LexedToken :=
  ⟨placed.token.shift count, placed.diagnostic?.map (Diagnostic.shift count)⟩

theorem shift_sized (count offset length : Nat) :
    (TextRange.sized offset length).shift count = .sized (offset + count) length := by
  unfold TextRange.shift TextRange.sized
  simp only [TextRange.mk.injEq, true_and]
  omega

/-- Where a lexeme is put decides on its range alone. -/
theorem place_shift (count offset : Nat) (glyphs : List Glyph) (lexeme : Lexeme) :
    place (offset + count) glyphs lexeme = (place offset glyphs lexeme).shift count := by
  have htoken : Token.place (offset + count) glyphs lexeme =
      (Token.place offset glyphs lexeme).shift count := by
    unfold Token.place Token.shift
    simp only [shift_sized]
  unfold place shift
  simp only [htoken, mk.injEq, true_and]
  unfold Token.diagnostic?
  rw [Option.map_map]
  rfl

theorem placeAll_shift (count offset : Nat) (glyphs : List Glyph) (lexemes : List Lexeme) :
    placeAll (offset + count) glyphs lexemes =
      (placeAll offset glyphs lexemes).map (shift count) := by
  induction lexemes generalizing offset glyphs with
  | nil => rfl
  | cons lexeme lexemes ih =>
      unfold placeAll
      dsimp only
      rw [List.map_cons, place_shift, ← ih]
      rfl

end LexedToken

theorem TokenStream.ofLexed_shift (count : Nat) (lexed : List LexedToken) :
    ofLexed (lexed.map (LexedToken.shift count)) = (ofLexed lexed).shift count := by
  unfold ofLexed shift
  simp only [TokenStream.mk.injEq, List.map_map, List.filterMap_map, List.map_filterMap]
  exact ⟨rfl, rfl⟩

/-! ## Tokens before and behind a place -/

namespace Site

variable {site : Site} {multiline : Bool} {first others : List LexedToken}

/-- The tokens of a text from a place on are those of the rest of the text, further on. -/
theorem lexed_drop (site : Site) (multiline : Bool) :
    ((ofText (site.text.drop site.start)).lexed multiline).map (LexedToken.shift site.start) =
      site.lexed multiline := by
  have hshift := LexedToken.placeAll_shift site.start 0 site.glyphs
    (Lexeme.all multiline site.symbols)
  rw [Nat.zero_add] at hshift
  exact hshift.symm

/-- Tokens that are followed by others stand before the place where those are lexed. -/
theorem exists_site_of_append (h : site.lexed multiline = first ++ others) :
    ∃ here : Site, here.text = site.text ∧ others = here.lexed multiline ∧
      Token.Tiles site.start (first.map LexedToken.token) here.start := by
  induction first generalizing site with
  | nil => exact ⟨site, rfl, h.symm, rfl⟩
  | cons placed first ih =>
      cases hsymbols : site.symbols with
      | nil =>
          rw [site.lexed_nil hsymbols] at h
          cases h
      | cons unit rest =>
          rw [site.lexed_cons hsymbols] at h
          obtain ⟨hplaced, hothers⟩ := List.cons.inj h
          obtain ⟨here, htext, hhere, htiles⟩ := ih hothers
          subst hplaced
          exact ⟨here, htext, hhere, rfl, htiles⟩

end Site

namespace TokenStream

variable {multiline : Bool} {source : List Char} {place : Nat}

/-- What stands behind a place is all that begins there or later, and nothing before it is. -/
theorem startingAt_append {first others : List LexedToken}
    (hfirst : ∀ placed ∈ first, placed.Reported ∧ placed.token.offset < place)
    (hothers : ∀ placed ∈ others, placed.Reported ∧ place ≤ placed.token.offset) :
    (ofLexed (first ++ others)).startingAt place = ofLexed others := by
  have hdiagnostic : ∀ placed : LexedToken, placed.Reported → ∀ diagnostic,
      placed.diagnostic? = some diagnostic → diagnostic.start = placed.token.offset :=
    fun placed hplaced diagnostic hsome => (hplaced.reportedBy hsome).start_eq
  unfold startingAt ofLexed
  simp only [List.map_append, List.filterMap_append, List.filter_append, TokenStream.mk.injEq]
  constructor
  · rw [List.filter_eq_nil_iff.2, List.filter_eq_self.2, List.nil_append]
    · intro token htoken
      obtain ⟨placed, hplaced, rfl⟩ := List.mem_map.1 htoken
      exact decide_eq_true (hothers placed hplaced).2
    · intro token htoken
      obtain ⟨placed, hplaced, rfl⟩ := List.mem_map.1 htoken
      have hbefore := (hfirst placed hplaced).2
      rw [decide_eq_true_eq]
      omega
  · rw [List.filter_eq_nil_iff.2, List.filter_eq_self.2, List.nil_append]
    · intro diagnostic hmem
      obtain ⟨placed, hplaced, hsome⟩ := List.mem_filterMap.1 hmem
      obtain ⟨hreported, hbehind⟩ := hothers placed hplaced
      rw [hdiagnostic placed hreported diagnostic hsome]
      exact decide_eq_true hbehind
    · intro diagnostic hmem
      obtain ⟨placed, hplaced, hsome⟩ := List.mem_filterMap.1 hmem
      obtain ⟨hreported, hbefore⟩ := hfirst placed hplaced
      rw [hdiagnostic placed hreported diagnostic hsome, decide_eq_true_eq]
      omega

/-- A boundary stands between the tokens before it and those that are lexed from it on. -/
theorem IsBoundary.exists_split (h : (lex multiline source).IsBoundary place) :
    ∃ (here : Site) (first : List LexedToken), here.text = source ∧ here.start = place ∧
      (Site.ofText source).lexed multiline = first ++ here.lexed multiline ∧
      Token.Tiles 0 (first.map LexedToken.token) place := by
  rcases h with rfl | ⟨token, htoken, rfl⟩
  · exact ⟨.ofText source, [], rfl, rfl, rfl, rfl⟩
  · rw [lex_eq_lexed] at htoken
    obtain ⟨placed, hplaced, rfl⟩ := List.mem_map.1 htoken
    obtain ⟨before, others, hsplit⟩ := List.append_of_mem hplaced
    rw [List.append_cons] at hsplit
    obtain ⟨here, htext, rfl, htiles⟩ := Site.exists_site_of_append hsplit
    have hstart : here.start = placed.token.stop := by
      rw [List.map_append] at htiles
      obtain ⟨middle, -, hlast⟩ := htiles.split
      exact hlast.2.symm
    rw [hstart] at htiles
    exact ⟨here, before ++ [placed], htext, hstart, hsplit, htiles⟩

/-- Before a boundary are the tokens that end there at the latest, behind it those lexed from it. -/
theorem lex_drop (h : (lex multiline source).IsBoundary place) :
    (lex multiline (source.drop place)).shift place =
      (lex multiline source).startingAt place := by
  obtain ⟨here, first, rfl, rfl, hsplit, htiles⟩ := h.exists_split
  have hreported := Site.reported_lexed (.ofText here.text) multiline
  have hcovers := (Site.lexed_tiles (.ofText here.text) multiline).2
  rw [hsplit] at hreported hcovers
  obtain ⟨hfirst, hothers⟩ := List.forall_mem_append.1 hreported
  have hbehind := (here.lexed_tiles multiline).1
  rw [lex_eq_lexed, lex_eq_lexed, ← ofLexed_shift, here.lexed_drop, hsplit]
  refine (startingAt_append (fun placed hplaced => ⟨hfirst placed hplaced, ?_⟩)
    fun placed hplaced => ⟨hothers placed hplaced, ?_⟩).symm
  · have hcover : placed.token.Covers here.text :=
      hcovers _ (List.mem_map_of_mem (List.mem_append_left _ hplaced))
    have hend := (htiles.between _ (List.mem_map_of_mem hplaced)).2
    exact Nat.lt_of_lt_of_le hcover.offset_lt hend
  · exact (hbehind.between _ (List.mem_map_of_mem hplaced)).1

end TokenStream

/-! ## At the end of the text -/

namespace PushBack

variable {site : Site} {reader : Reader} {unit : Symbol} {rest : List Symbol}
  {multiline : Bool}

theorem answers_eq (h : reader.At site 0 site.symbols) (count : Nat) :
    answers multiline count reader =
      .ok ((List.range count).map fun index => (site.lexed multiline)[index]?) := by
  induction count generalizing site reader with
  | zero => rfl
  | succ count ih =>
      rw [List.range_succ_eq_map, List.map_cons, List.map_map]
      unfold answers
      cases hsymbols : site.symbols with
      | nil =>
          rw [hsymbols] at h
          obtain ⟨after, hnext, hafter⟩ := next_nil multiline h
          rw [← hsymbols] at hafter
          have hrest := ih hafter
          rw [site.lexed_nil hsymbols] at hrest ⊢
          simp only [hnext, except_ok_bind, hrest]
          rfl
      | cons unit rest =>
          obtain ⟨after, hnext, hafter⟩ := next_cons multiline h hsymbols
          have hrest := ih hafter
          rw [site.lexed_cons hsymbols]
          simp only [hnext, except_ok_bind, hrest]
          rfl

end PushBack

namespace Lexer

/-- The lexer stands at a site, with the reports about the tokens before. -/
structure At (site : Site) (lexer : Lexer) : Prop where
  offset_eq : lexer.offset = site.start
  glyphs_eq : lexer.glyphs = site.glyphs

variable {site : Site} {lexer : Lexer} {unit : Symbol} {rest : List Symbol}

theorem At.next_cons (h : lexer.At site) (hsymbols : site.symbols = unit :: rest) :
    lexer.next = (some (site.firstToken lexer.multiline unit rest).token,
      { lexer with
        offset := (site.firstToken lexer.multiline unit rest).token.stop
        glyphs := (site.behind lexer.multiline unit rest).glyphs
        diagnostics := lexer.diagnostics ++
          (site.firstToken lexer.multiline unit rest).diagnostic?.toList }) := by
  obtain ⟨glyph, glyphs, hglyphs, rfl, rfl⟩ := List.map_eq_cons_iff.1 hsymbols
  have hahead := h.glyphs_eq.trans hglyphs
  unfold next Site.firstToken Site.behind
  rw [Site.glyphs_after, hahead, hglyphs, h.offset_eq]
  rfl

theorem At.next_nil (h : lexer.At site) (hsymbols : site.symbols = []) :
    lexer.next = (none, lexer) := by
  have hahead := h.glyphs_eq.trans (List.map_eq_nil_iff.1 hsymbols)
  unfold next
  rw [hahead]

theorem length_reports_cons (placed : LexedToken) (others : List LexedToken) :
    ((placed :: others).filterMap LexedToken.diagnostic?).length =
      placed.diagnostic?.toList.length + (others.filterMap LexedToken.diagnostic?).length := by
  cases hreport : placed.diagnostic? with
  | none => rw [List.filterMap_cons_none hreport, Option.toList_none, List.length_nil, Nat.zero_add]
  | some diagnostic =>
      rw [List.filterMap_cons_some hreport, List.length_cons, Nat.add_comm]
      rfl

theorem nextMany_eq (h : lexer.At site) (count : Nat) :
    nextMany count lexer = (List.range count).map fun index =>
      (((site.lexed lexer.multiline)[index]?).map LexedToken.token,
        lexer.diagnostics.length +
          (((site.lexed lexer.multiline).take (index + 1)).filterMap
            LexedToken.diagnostic?).length) := by
  induction count generalizing site lexer with
  | zero => rfl
  | succ count ih =>
      rw [List.range_succ_eq_map, List.map_cons, List.map_map]
      unfold nextMany
      cases hsymbols : site.symbols with
      | nil =>
          have hrest := ih h
          rw [site.lexed_nil hsymbols] at hrest ⊢
          rw [h.next_nil hsymbols]
          dsimp only
          rw [hrest]
          rfl
      | cons unit rest =>
          rw [h.next_cons hsymbols, site.lexed_cons hsymbols]
          dsimp only
          rw [ih ⟨rfl, rfl⟩]
          refine congrArg₂ List.cons (Prod.ext rfl ?_) (List.map_congr_left fun index _ => ?_)
          · dsimp only
            rw [List.take_succ_cons, List.take_zero, length_reports_cons, List.length_append]
            rfl
          · refine Prod.ext rfl ?_
            dsimp only [Function.comp_apply]
            rw [List.take_succ_cons, length_reports_cons, List.length_append, Nat.add_assoc]

end Lexer

namespace TokenStream

/-- Nothing of what was read for one token goes over into the next one.  A lexer that begins anew
at a boundary gives what is left of the tokens and of the reports; one that goes on gives its
tokens in turn, with the reports so far, and at the end of the text none and no report more,
however often it is asked. -/
theorem lex_restarts (multiline : Bool) (source : List Char) :
    (∀ place, (lex multiline source).IsBoundary place →
      PushBack.lex multiline (source.drop place) = .ok (lex multiline (source.drop place)) ∧
      (lex multiline (source.drop place)).shift place =
        (lex multiline source).startingAt place) ∧
    ∃ lexed, ofLexed lexed = lex multiline source ∧ ∀ count,
      PushBack.answers multiline count (.ofText source) =
        .ok ((List.range count).map fun index => lexed[index]?) ∧
      Lexer.nextMany count (.ofText multiline source) = (List.range count).map fun index =>
        (lexed[index]?.map LexedToken.token,
          ((lexed.take (index + 1)).filterMap LexedToken.diagnostic?).length) := by
  refine ⟨fun place hplace => ⟨PushBack.lex_eq multiline _, lex_drop hplace⟩,
    (Site.ofText source).lexed multiline, rfl, fun count => ⟨?_, ?_⟩⟩
  · exact PushBack.answers_eq (Reader.at_ofText source) count
  · have hstart : (Lexer.ofText multiline source).At (.ofText source) := ⟨rfl, rfl⟩
    rw [Lexer.nextMany_eq hstart]
    simp only [Lexer.ofText, List.length_nil, Nat.zero_add]

/-- A keyword that is a name as a brace follows the blank behind it, a variable that leaves its
colons, and a string that holds an escape and lacks its quote. -/
def readAhead : List Char :=
  "tag \x7b$a::'\\u0062".toList

/-- The colons that were read for the variable are tokens of their own again. -/
theorem lex_restarts_colons :
    (lex false readAhead).IsBoundary 7 ∧
      PushBack.lex false (readAhead.drop 7) = .ok (lex false (readAhead.drop 7)) ∧
      (lex false (readAhead.drop 7)).shift 7 = (lex false readAhead).startingAt 7 ∧
      ((lex false readAhead).startingAt 7).tokens.map Token.kind = [.colon, .colon, .string] ∧
      ((lex false readAhead).startingAt 7).diagnostics.length = 1 := by
  have hplace : (lex false readAhead).IsBoundary 7 := .inr (by decide +kernel)
  obtain ⟨hlex, hrest⟩ := (lex_restarts false readAhead).1 7 hplace
  exact ⟨hplace, hlex, hrest, by decide +kernel, by decide +kernel⟩

end TokenStream

end Manifest
