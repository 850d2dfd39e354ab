import Manifest.Proofs.Lexing.Agreement

/-!
# Tokens tile their text

Tokens follow one another without gap or overlap from the beginning of a text to its
end, and the text of a token is the stretch that it covers, also where the token keeps
the shared spelling of its kind.
-/

namespace Manifest

/-! ## Shared spellings -/

namespace Glyph

theorem symbol_first_of_width {c : Char} {rest : List Char} (h : (first c rest).width = 1) :
    (first c rest).symbol = .char c := by
  unfold first at h ⊢
  split
  · rename_i hc
    subst hc
    rw [if_pos rfl] at h
    cases hescape : escape? rest with
    | none => rfl
    | some glyph =>
        have hwide := le_width_escape? hescape
        rw [hescape, Option.getD_some] at h
        omega
  · rfl

theorem take_of_symbols {text spelling : List Char} {count : Nat}
    (hsymbols : symbols ((decode text).take count) = spelling.map Symbol.char)
    (hwidth : totalWidth ((decode text).take count) = spelling.length) :
    text.take spelling.length = spelling := by
  induction spelling generalizing text count with
  | nil => rfl
  | cons letter spelling ih =>
      match count, text with
      | 0, text => simp [symbols] at hsymbols
      | count + 1, [] => simp [symbols] at hsymbols
      | count + 1, c :: rest =>
          rw [decode_cons_drop, List.take_succ_cons] at hsymbols hwidth
          simp only [symbols, List.map_cons, List.cons.injEq] at hsymbols
          rcases hsymbols with ⟨hfirst, hrest⟩
          have hcount := congrArg List.length hrest
          simp only [List.length_map] at hcount
          have hpos := width_first_pos c rest
          have hsum : (List.take count (decode ((c :: rest).drop (first c rest).width))).length ≤
              totalWidth (List.take count (decode ((c :: rest).drop (first c rest).width))) :=
            length_le_totalWidth fun glyph hglyph =>
              width_pos_of_mem_decode (List.mem_of_mem_take hglyph)
          rw [totalWidth_cons, List.length_cons] at hwidth
          have hone : (first c rest).width = 1 := by omega
          have hletter : c = letter := by
            rw [symbol_first_of_width hone] at hfirst
            exact Symbol.char.inj hfirst
          rw [hone, List.drop_succ_cons, List.drop_zero] at hrest hwidth
          rw [List.length_cons, List.take_succ_cons, hletter, ih hrest (by omega)]

end Glyph

namespace Lexeme

theorem operatorFrom_spelled {prior spelling : List Char} {kind : TokenKind}
    {rest : List Symbol} (hprior : kind.spelling? = some prior)
    (h : (operatorFrom prior kind rest).kind.spelling? = some spelling) :
    prior.map Symbol.char ++ rest.take (operatorFrom prior kind rest).extra =
      spelling.map Symbol.char := by
  induction rest generalizing prior kind with
  | nil =>
      obtain rfl : prior = spelling := Option.some.inj (hprior.symm.trans h)
      simp
  | cons unit rest ih =>
      have hstop : operatorFrom prior kind (unit :: rest) = whole kind 0 →
          prior.map Symbol.char ++
            (unit :: rest).take (operatorFrom prior kind (unit :: rest)).extra =
              spelling.map Symbol.char := by
        intro hwhole
        rw [hwhole] at h ⊢
        obtain rfl : prior = spelling := Option.some.inj (hprior.symm.trans h)
        simp [whole]
      match unit with
      | .high bits => exact hstop rfl
      | .low bits => exact hstop rfl
      | .char c =>
          cases hlonger : TokenKind.operator? (prior ++ [c]) with
          | none =>
              refine hstop ?_
              rw [operatorFrom, hlonger]
          | some longer =>
              have hnext := PushBack.spelling?_of_operator? hlonger
              rw [operatorFrom, hlonger] at h ⊢
              have hrest := ih hnext h
              rw [List.map_append, List.append_assoc] at hrest
              exact hrest

theorem keyword?_spelled {node : KeywordTrie} {path : List Char} {entry : KeywordEntry}
    {size : Nat} {ahead : List Symbol} (hnode : PushBack.SpelledNode path node)
    (h : Symbol.keyword? node ahead = some (entry, size)) :
    ∃ spelling, entry.kind.spelling? = some spelling ∧
      path.map Symbol.char ++ ahead.take size = spelling.map Symbol.char := by
  induction ahead generalizing node path size with
  | nil =>
      obtain ⟨found, hfound, hpair⟩ := Option.map_eq_some_iff.1 h
      obtain ⟨rfl, rfl⟩ := Prod.mk.inj hpair
      exact ⟨path, hnode.2 found hfound, by simp⟩
  | cons unit rest ih =>
      cases hstep : PushBack.stepBy? node (some unit) with
      | none =>
          have hstop : PushBack.stepBy? node (unit :: rest).head? = none := hstep
          rw [PushBack.keyword?_stop hstop] at h
          split at h
          · cases h
          · obtain ⟨found, hfound, hpair⟩ := Option.map_eq_some_iff.1 h
            obtain ⟨rfl, rfl⟩ := Prod.mk.inj hpair
            exact ⟨path, hnode.2 found hfound, by simp⟩
      | some next =>
          rw [PushBack.keyword?_step rest hstep] at h
          obtain ⟨⟨found, count⟩, hfound, hpair⟩ := Option.map_eq_some_iff.1 h
          obtain ⟨rfl, rfl⟩ := Prod.mk.inj hpair
          match unit, hstep with
          | .char c, hstep =>
              obtain ⟨-, hnext⟩ := PushBack.spelled_find? hnode.1 hstep
              obtain ⟨spelling, hspelling, htake⟩ := ih hnext hfound
              refine ⟨spelling, hspelling, ?_⟩
              rw [List.map_append, List.append_assoc] at htake
              exact htake

theorem word_spelled {first : Symbol} {rest : List Symbol} {spelling : List Char}
    (h : (word first rest).kind.spelling? = some spelling) :
    first :: rest.take (word first rest).extra = spelling.map Symbol.char := by
  unfold word at h ⊢
  cases hstep : PushBack.stepBy? keywordTrie (some first) with
  | none =>
      have hroot : keywordTrie.entry = none := by decide +kernel
      have hstop : PushBack.stepBy? keywordTrie (first :: rest).head? = none := hstep
      rw [PushBack.keyword?_stop hstop, hroot, Option.map_none, ite_self] at h
      cases h
  | some node =>
      rw [PushBack.keyword?_step rest hstep] at h ⊢
      cases hkeyword : Symbol.keyword? node rest with
      | none =>
          rw [hkeyword] at h
          cases h
      | some found =>
          rcases found with ⟨entry, size⟩
          match first, hstep with
          | .char c, hstep =>
              obtain ⟨-, hnode⟩ := PushBack.spelled_find? PushBack.spelled_keywordTrie hstep
              obtain ⟨shared, hshared, htake⟩ := keyword?_spelled hnode hkeyword
              rw [hkeyword] at h
              simp only [Option.map_some] at h ⊢
              split at h
              · cases h
              · rename_i hname
                obtain rfl : shared = spelling := Option.some.inj (hshared.symm.trans h)
                rw [if_neg hname]
                exact htake

theorem slash_spelling? (rest : List Symbol) : (slash rest).kind.spelling? = none := by
  unfold slash
  split <;> rfl

theorem ofChar_spelled (multiline : Bool) (c : Char) :
    ∀ rest spelling, (ofChar multiline c rest).kind.spelling? = some spelling →
      .char c :: rest.take (ofChar multiline c rest).extra = spelling.map Symbol.char := by
  apply ofChar_cases multiline c
    (motive := fun lexeme => ∀ rest spelling, (lexeme rest).kind.spelling? = some spelling →
      .char c :: rest.take (lexeme rest).extra = spelling.map Symbol.char)
  · intro _ rest spelling h
    cases h
  · intro _ rest spelling h
    cases h
  · intro _ rest spelling h
    cases h
  · intro _ rest spelling h
    cases h
  · intro _ rest spelling h
    rw [slash_spelling?] at h
    cases h
  · intro kind hkind rest spelling h
    exact operatorFrom_spelled (PushBack.spelling?_of_operator? hkind) h
  · intro kind hkind rest spelling h
    obtain rfl : [c] = spelling :=
      Option.some.inj ((PushBack.spelling?_of_separator? hkind).symm.trans h)
    rfl
  · intro _ rest spelling h
    exact word_spelled h
  · intro _ rest spelling h
    cases h
  · intro _ rest spelling h
    cases h

/-- A lexeme of a kind with a spelling of its own is spelled that way. -/
theorem first_spelled {multiline : Bool} {unit : Symbol} {rest : List Symbol}
    {spelling : List Char} (h : (first multiline unit rest).kind.spelling? = some spelling) :
    (unit :: rest).take (first multiline unit rest).size = spelling.map Symbol.char := by
  revert h
  apply first_cases multiline unit rest (motive := fun lexeme =>
    lexeme.kind.spelling? = some spelling →
      (unit :: rest).take lexeme.size = spelling.map Symbol.char)
  case hchar =>
    rintro c rfl h
    exact ofChar_spelled multiline c rest spelling h
  all_goals
    intro extra h
    cases h

end Lexeme

/-! ## Tiles -/

namespace Token

/-- The tokens tile a stretch of text: each begins where the one before ends. -/
def Tiles : Nat → List Token → Nat → Prop
  | start, [], stop => start = stop
  | start, token :: tokens, stop => token.offset = start ∧ Tiles token.stop tokens stop

/-- The token covers some text, and that is its text. -/
def Covers (source : List Char) (token : Token) : Prop :=
  1 ≤ token.range.length ∧ token.text source = token.range.slice source

theorem Tiles.start_le {tokens : List Token} {start stop : Nat} (h : Tiles start tokens stop) :
    start ≤ stop := by
  induction tokens generalizing start with
  | nil => exact Nat.le_of_eq h
  | cons token tokens ih =>
      have hrange := token.range.start_le_stop
      have hrest := ih h.2
      have hoffset : token.range.start = start := h.1
      have hstop : token.stop = token.range.stop := rfl
      omega

theorem Tiles.split {left right : List Token} {start stop : Nat}
    (h : Tiles start (left ++ right) stop) :
    ∃ middle, Tiles start left middle ∧ Tiles middle right stop := by
  induction left generalizing start with
  | nil => exact ⟨start, rfl, h⟩
  | cons token left ih =>
      obtain ⟨middle, hleft, hright⟩ := ih h.2
      exact ⟨middle, ⟨h.1, hleft⟩, hright⟩

theorem Tiles.between {tokens : List Token} {start stop : Nat} (h : Tiles start tokens stop) :
    ∀ token ∈ tokens, start ≤ token.offset ∧ token.stop ≤ stop := by
  induction tokens generalizing start with
  | nil => exact List.forall_mem_nil _
  | cons first tokens ih =>
      obtain ⟨rfl, hrest⟩ := h
      have hfirst : first.offset ≤ first.stop := first.range.start_le_stop
      refine List.forall_mem_cons.2 ⟨⟨Nat.le_refl _, hrest.start_le⟩, fun token htoken => ?_⟩
      exact ⟨Nat.le_trans hfirst (ih hrest token htoken).1, (ih hrest token htoken).2⟩

theorem Covers.offset_lt {source : List Char} {token : Token} (h : token.Covers source) :
    token.offset < token.stop :=
  Nat.lt_of_sub_pos h.1

theorem Covers.length_text {source : List Char} {token : Token} (h : token.Covers source)
    (hstop : token.stop ≤ source.length) :
    token.offset + (token.text source).length = token.stop := by
  have hrange := token.range.start_le_stop
  rw [h.2]
  unfold TextRange.slice TextRange.length
  rw [List.length_take, List.length_drop]
  unfold Token.offset Token.stop at *
  omega

theorem Tiles.pairwise_offset {tokens : List Token} {start stop : Nat}
    (h : Tiles start tokens stop) (hlength : ∀ token ∈ tokens, token.offset < token.stop) :
    tokens.Pairwise fun first second => first.offset < second.offset := by
  induction tokens generalizing start with
  | nil => exact List.Pairwise.nil
  | cons first tokens ih =>
      obtain ⟨hfirst, hothers⟩ := List.forall_mem_cons.1 hlength
      exact .cons (fun token htoken => Nat.lt_of_lt_of_le hfirst (h.2.between token htoken).1)
        (ih h.2 hothers)

theorem Tiles.start_unique {tokens : List Token} {start other stop : Nat}
    (h : Tiles start tokens stop) (h' : Tiles other tokens stop) : start = other := by
  cases tokens with
  | nil => exact Eq.trans h (Eq.symm h')
  | cons token tokens => exact h.1.symm.trans h'.1

/-- Texts that cover their tokens put the tiled stretch together again. -/
theorem Tiles.flatMap_text {source : List Char} {tokens : List Token} {start stop : Nat}
    (h : Tiles start tokens stop) (hcovers : ∀ token ∈ tokens, token.Covers source) :
    tokens.flatMap (Token.text source) = (source.drop start).take (stop - start) := by
  induction tokens generalizing start with
  | nil =>
      have hstop : start = stop := h
      rw [hstop, Nat.sub_self, List.take_zero]
      rfl
  | cons token tokens ih =>
      rcases h with ⟨rfl, hrest⟩
      have hle := hrest.start_le
      have hrange := token.range.start_le_stop
      have htext := (hcovers token (by simp)).2
      have hsplit : stop - token.offset = token.range.length + (stop - token.stop) := by
        unfold offset Token.stop TextRange.length at *
        omega
      have hdrop : (source.drop token.offset).drop token.range.length =
          source.drop token.stop := by
        rw [List.drop_drop]
        congr 1
        unfold offset Token.stop TextRange.length
        omega
      rw [List.flatMap_cons, ih hrest fun other hother => hcovers other (by simp [hother]),
        hsplit, List.take_add, hdrop, htext]
      rfl

end Token

namespace Site

variable {site : Site} {multiline : Bool} {unit : Symbol} {rest : List Symbol}

/-- A shared spelling is kept only where the token is spelled that way. -/
theorem slice_firstToken {spelling : List Char} (hsymbols : site.symbols = unit :: rest)
    (h : (site.firstToken multiline unit rest).token.fixedText? = some spelling) :
    (site.firstToken multiline unit rest).token.range.slice site.text = spelling := by
  obtain ⟨hshared, hlength⟩ := Option.filter_eq_some_iff.1 h
  have hwidth : Glyph.totalWidth (site.glyphs.take (Lexeme.first multiline unit rest).size) =
      spelling.length := (eq_of_beq hlength).symm
  have hspelled : Glyph.symbols (site.glyphs.take (Lexeme.first multiline unit rest).size) =
      spelling.map Symbol.char := by
    unfold Token.sharedSpelling? at hshared
    split at hshared
    · rename_i shared hkind
      obtain rfl : shared = spelling := Option.some.inj hshared
      rw [PushBack.symbols_take, hsymbols]
      exact Lexeme.first_spelled hkind
    · split at hshared
      · rename_i hblank
        obtain rfl : singleSpace = spelling := Option.some.inj hshared
        exact hblank.2
      · cases hshared
  show (site.text.drop site.start).take (TextRange.sized _ _).length = _
  rw [TextRange.length_sized, hwidth]
  exact Glyph.take_of_symbols hspelled hwidth

theorem covers_firstToken (hsymbols : site.symbols = unit :: rest) :
    (site.firstToken multiline unit rest).token.Covers site.text := by
  constructor
  · have hlength := PushBack.length_symbols_le hsymbols
    have hwide : (site.glyphs.take (Lexeme.first multiline unit rest).size).length ≤
        Glyph.totalWidth (site.glyphs.take (Lexeme.first multiline unit rest).size) :=
      Glyph.length_le_totalWidth fun glyph hglyph =>
        Glyph.width_pos_of_mem_decode (List.mem_of_mem_take hglyph)
    rw [List.length_take] at hwide
    unfold Lexeme.size at hwide
    show 1 ≤ (TextRange.sized _ _).length
    rw [TextRange.length_sized]
    unfold Lexeme.size
    omega
  · unfold Token.text
    cases htext : (site.firstToken multiline unit rest).token.fixedText? with
    | none => rfl
    | some spelling => exact (slice_firstToken hsymbols htext).symm

/-- The tokens from a site on tile what is left of the text, and cover it. -/
theorem lexed_tiles (site : Site) (multiline : Bool) :
    Token.Tiles site.start ((site.lexed multiline).map LexedToken.token) site.text.length ∧
      ∀ token ∈ (site.lexed multiline).map LexedToken.token, token.Covers site.text := by
  induction hcount : site.glyphs.length using Nat.strongRecOn generalizing site with
  | ind count ih =>
      cases hsymbols : site.symbols with
      | nil =>
          have hglyphs : site.glyphs = [] := List.map_eq_nil_iff.1 hsymbols
          have hend := site.start_add_totalWidth
          rw [hglyphs, Glyph.totalWidth_nil, Nat.add_zero] at hend
          rw [site.lexed_nil hsymbols]
          exact ⟨hend, by simp⟩
      | cons unit rest =>
          have hshorter := site.length_glyphs_after multiline hsymbols
          obtain ⟨htiles, hcovers⟩ := ih _ (by omega) (site.behind multiline unit rest) rfl
          rw [site.lexed_cons hsymbols, List.map_cons]
          refine ⟨⟨rfl, htiles⟩, fun token htoken => ?_⟩
          rcases List.mem_cons.1 htoken with rfl | htoken
          · exact covers_firstToken hsymbols
          · exact hcovers token htoken

end Site

namespace TokenStream

theorem lex_eq_lexed (multiline : Bool) (source : List Char) :
    lex multiline source = ofLexed ((Site.ofText source).lexed multiline) :=
  rfl

theorem tiles_lex (multiline : Bool) (source : List Char) :
    Token.Tiles 0 (lex multiline source).tokens source.length ∧
      ∀ token ∈ (lex multiline source).tokens, token.Covers source := by
  rw [lex_eq_lexed]
  exact Site.lexed_tiles (.ofText source) multiline

/-- Each token of a text takes some of it. -/
theorem lex_between (multiline : Bool) (source : List Char) :
    ∀ token ∈ (lex multiline source).tokens,
      token.offset < token.stop ∧ token.stop ≤ source.length := by
  obtain ⟨htiles, hcovers⟩ := tiles_lex multiline source
  exact fun token htoken => ⟨(hcovers token htoken).offset_lt, (htiles.between token htoken).2⟩

/-- Every text is lexed without a fault of the reader or of a range, into tokens that tile
it, cover some of it each, and put it together again. -/
theorem lex_complete (multiline : Bool) (source : List Char) :
    PushBack.lex multiline source = .ok (lex multiline source) ∧
      Token.Tiles 0 (lex multiline source).tokens source.length ∧
      (∀ token ∈ (lex multiline source).tokens, 1 ≤ token.range.length) ∧
      ((lex multiline source).tokens = [] ↔ source = []) ∧
      (∀ token ∈ (lex multiline source).tokens,
        token.text source = token.range.slice source) ∧
      (lex multiline source).tokens.flatMap (Token.text source) = source := by
  obtain ⟨htiles, hcovers⟩ := tiles_lex multiline source
  have htexts := htiles.flatMap_text hcovers
  rw [List.drop_zero, Nat.sub_zero, List.take_length] at htexts
  refine ⟨PushBack.lex_eq multiline source, htiles, fun token htoken => (hcovers token htoken).1,
    ⟨fun hnone => ?_, ?_⟩, fun token htoken => (hcovers token htoken).2, htexts⟩
  · rw [hnone] at htexts
    exact htexts.symm
  · rintro rfl
    rfl

end TokenStream

end Manifest
