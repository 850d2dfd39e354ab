import Manifest.Proofs.Lexing.Multiline
import Manifest.Proofs.Reading.Escapes
import Manifest.Tree.Node

/-!
# Where strings are delimited

The lexer finds the quotes of a string among the units of a text, where an escape may spell a
quote and a backslash may take one away.  The tree looks at the first and at the last character
of the token.  Both agree where the quotes are spelled as they are, and no string that lacks its
quote ends with one.
-/

namespace Manifest

open Manifest.Symbol (stringEnd)

/-! ## Spellings of a character -/

namespace Glyph

/-- The text spells the character: as it is, or as an escape of its code. -/
def Spells (c : Char) (text : List Char) : Prop :=
  text = [c] ∨ ∃ more digits code, text = '\\' :: 'u' :: (more ++ digits) ∧
    (∀ u ∈ more, u = 'u') ∧ digits.length = 4 ∧ hexCode? digits = some code ∧
    Symbol.ofCode code = .char c

variable {c : Char} {text : List Char} {glyph : Glyph} {glyphs : List Glyph}

theorem spells_take (h : decode text = glyph :: glyphs) (hsymbol : glyph.symbol = .char c) :
    Spells c (text.take glyph.width) := by
  cases text with
  | nil => cases h
  | cons head rest =>
      rw [decode_cons_drop] at h
      obtain ⟨rfl, -⟩ := List.cons.inj h
      unfold first at hsymbol ⊢
      by_cases hhead : head = '\\'
      · rw [if_pos hhead] at hsymbol ⊢
        cases hescape : escape? rest with
        | none =>
            rw [hescape] at hsymbol
            obtain rfl : '\\' = c := Symbol.char.inj hsymbol
            exact .inl (by rw [hhead]; rfl)
        | some glyph =>
            obtain ⟨code, written, behind, hrest,
              ⟨more, digits, hwritten, hmore, hdigits, hcode⟩, rfl⟩ :=
                escape?_eq_some_iff.1 hescape
            rw [hescape] at hsymbol
            rw [hhead, hrest, Option.getD_some, List.take_left]
            exact .inr ⟨more, digits, code, hwritten, hmore, hdigits, hcode, hsymbol⟩
      · rw [if_neg hhead] at hsymbol ⊢
        obtain rfl : head = c := Symbol.char.inj hsymbol
        exact .inl rfl

/-- An escape begins with a backslash and ends with a digit. -/
theorem Spells.escape (h : Spells c text) (hescape : text ≠ [c]) :
    ∃ body digit, text = '\\' :: (body ++ [digit]) ∧ 4 ≤ body.length ∧
      hexValue? digit ≠ none := by
  obtain ⟨more, digits, code, rfl, -, hlength, hcode, -⟩ := h.resolve_left hescape
  obtain ⟨first, second, third, digit, rfl⟩ : ∃ first second third digit,
      digits = [first, second, third, digit] := by
    match digits, hlength with
    | [first, second, third, digit], _ => exact ⟨first, second, third, digit, rfl⟩
  refine ⟨'u' :: (more ++ [first, second, third]), digit, by simp, by simp, fun hnone => ?_⟩
  simp [hexCode?, hnone] at hcode

end Glyph

/-! ## Strings among the units -/

theorem Symbol.closed_stringEnd {multiline : Bool} {quote : Char} {rest : List Symbol}
    (h : (stringEnd multiline quote rest).closed = true) :
    ∃ inner behind, rest = inner ++ .char quote :: behind ∧
      (stringEnd multiline quote rest).size = inner.length + 1 := by
  fun_induction stringEnd multiline quote rest with
  | case1 => cases h
  | case2 rest => exact ⟨[], rest, rfl, rfl⟩
  | case3 => cases h
  | case4 next rest _ ih =>
      obtain ⟨inner, behind, hrest, hsize⟩ := ih h
      refine ⟨_ :: next :: inner, behind, by rw [hrest]; rfl, ?_⟩
      show 2 + (stringEnd multiline quote rest).size = _
      rw [hsize, List.length_cons, List.length_cons]
      omega
  | case5 => cases h
  | case6 symbol rest _ _ _ ih =>
      obtain ⟨inner, behind, hrest, hsize⟩ := ih h
      refine ⟨symbol :: inner, behind, by rw [hrest]; rfl, ?_⟩
      show 1 + (stringEnd multiline quote rest).size = _
      rw [hsize, List.length_cons]
      omega

def IsQuote (c : Char) : Prop :=
  c = '\'' ∨ c = '"'

namespace TokenKind

def isLiteral : TokenKind → Bool
  | .comment | .blockComment | .string | .regexp => true
  | _ => false

theorem isLiteral_of_spelling? {kind : TokenKind} {spelling : List Char}
    (h : kind.spelling? = some spelling) : kind.isLiteral = false := by
  cases kind <;> first | rfl | cases h

end TokenKind

namespace Lexeme

theorem spelling?_operatorFrom {prior : List Char} {kind : TokenKind}
    (h : kind.spelling? = some prior) (rest : List Symbol) :
    ∃ spelling, (operatorFrom prior kind rest).kind.spelling? = some spelling := by
  fun_induction operatorFrom prior kind rest with
  | case1 spelling kind c rest longer hlonger lexeme ih =>
      exact ih (PushBack.spelling?_of_operator? hlonger)
  | case2 => exact ⟨_, h⟩
  | case3 => exact ⟨_, h⟩

theorem isLiteral_word (symbol : Symbol) (rest : List Symbol) :
    (word symbol rest).kind.isLiteral = false := by
  unfold word
  split
  · rename_i entry size hkeyword
    have hroot : keywordTrie.entry = none := by decide +kernel
    have hnode : PushBack.SpelledNode [] keywordTrie :=
      ⟨PushBack.spelled_keywordTrie, fun entry hentry => by rw [hroot] at hentry; cases hentry⟩
    obtain ⟨spelling, hspelling, -⟩ := keyword?_spelled hnode hkeyword
    split
    · rfl
    · exact TokenKind.isLiteral_of_spelling? hspelling
  · rfl

/-- Literals and comments begin with a quote, a slash or a number sign. -/
theorem opening_of_isLiteral {multiline : Bool} {unit : Symbol} {rest : List Symbol}
    (h : (first multiline unit rest).kind.isLiteral = true) :
    ∃ c, unit = .char c ∧ (IsQuote c ∨ c = '/' ∨ c = '#') := by
  have hnone : ∀ {kind : TokenKind} {spelling : List Char}, kind.spelling? = some spelling →
      kind.isLiteral ≠ true := by
    intro kind spelling hspelling
    rw [TokenKind.isLiteral_of_spelling? hspelling]
    exact Bool.false_ne_true
  revert h
  apply first_cases multiline unit rest (motive := fun lexeme =>
    lexeme.kind.isLiteral = true → ∃ c, unit = .char c ∧ (IsQuote c ∨ c = '/' ∨ c = '#'))
  case hchar =>
    rintro c rfl h
    refine ⟨c, rfl, ?_⟩
    revert h
    apply ofChar_cases multiline c (motive := fun lexeme =>
      (lexeme rest).kind.isLiteral = true → IsQuote c ∨ c = '/' ∨ c = '#')
    case hcomment => exact fun hc _ => .inr (.inr hc)
    case hstring => exact fun hc _ => .inl hc
    case hslash => exact fun hc _ => .inr (.inl hc)
    case hoperator =>
      intro kind hkind hliteral
      obtain ⟨spelling, hspelling⟩ :=
        spelling?_operatorFrom (PushBack.spelling?_of_operator? hkind) rest
      exact (hnone hspelling hliteral).elim
    case hseparator =>
      intro kind hkind hliteral
      exact (hnone (PushBack.spelling?_of_separator? hkind) hliteral).elim
    case hword =>
      intro _ hliteral
      rw [isLiteral_word] at hliteral
      cases hliteral
    all_goals
      intros
      contradiction
  all_goals
    intro extra h
    cases h

theorem ofChar_slash (multiline : Bool) (rest : List Symbol) :
    ofChar multiline '/' rest = slash rest :=
  rfl

theorem ofChar_hash (multiline : Bool) (rest : List Symbol) :
    ofChar multiline '#' rest = whole .comment (Symbol.lineSize rest) :=
  rfl

theorem slash_ne_string (rest : List Symbol) : (slash rest).kind ≠ .string := by
  unfold slash
  split <;> exact nofun

theorem isQuote_of_string {multiline : Bool} {unit : Symbol} {rest : List Symbol}
    (h : (first multiline unit rest).kind = .string) :
    ∃ quote, IsQuote quote ∧ unit = .char quote := by
  have hliteral : (first multiline unit rest).kind.isLiteral = true := by
    rw [h]
    rfl
  obtain ⟨c, rfl, hc⟩ := opening_of_isLiteral hliteral
  rcases hc with hquote | rfl | rfl
  · exact ⟨c, hquote, rfl⟩
  · rw [first, ofChar_slash] at h
    exact (slash_ne_string rest h).elim
  · rw [first, ofChar_hash] at h
    cases h

end Lexeme

/-! ## Strings in a text -/

namespace Token

/-- The lexer delimits the string: it begins with its quote, in some spelling, and unless the
quote is missing it ends with that quote, in some spelling.  The content is what stands between. -/
structure DelimitedAs (source : List Char) (token : Token) (quote : Char)
    (opening content closing : List Char) : Prop where
  isQuote : IsQuote quote
  text : token.text source = opening ++ content ++ closing
  opening : Glyph.Spells quote opening
  closing : if token.flags.isPartial then closing = [] else Glyph.Spells quote closing

/-- The tree takes the string as the lexer does.  With both quotes the string literal is quoted
and its value is the content; without the last one it keeps its text and mentions no variable.
In both cases the content is what unquoting leaves. -/
structure AgreesOn (source : List Char) (token : Token) (content : List Char) : Prop where
  literal : ∀ offset,
    let literal := Node.string offset (token.text source)
    if token.flags.isPartial then
      literal.label? = some (token.text source) ∧ literal.children = []
    else
      literal.label? = some content ∧ literal.label? ≠ some (token.text source)
  unquote : Quotation.unquote (token.text source) = content

end Token

namespace Site

theorem forall_lexed {multiline : Bool} {motive : LexedToken → Prop} (site : Site)
    (h : ∀ (here : Site) (unit : Symbol) (rest : List Symbol), here.text = site.text →
      here.symbols = unit :: rest → motive (here.firstToken multiline unit rest)) :
    ∀ placed ∈ site.lexed multiline, motive placed := by
  induction hcount : site.glyphs.length using Nat.strongRecOn generalizing site with
  | ind count ih =>
      cases hsymbols : site.symbols with
      | nil =>
          rw [site.lexed_nil hsymbols]
          exact List.forall_mem_nil _
      | cons unit rest =>
          have hshorter := site.length_glyphs_after multiline hsymbols
          rw [site.lexed_cons hsymbols]
          exact List.forall_mem_cons.2 ⟨h site unit rest rfl hsymbols,
            ih _ (by omega) (site.behind multiline unit rest) h rfl⟩

theorem text_firstToken (multiline : Bool) {unit : Symbol} {rest : List Symbol} {site : Site}
    (hsymbols : site.symbols = unit :: rest) :
    (site.firstToken multiline unit rest).token.text site.text =
      (site.text.drop site.start).take
        (Glyph.totalWidth (site.glyphs.take (Lexeme.first multiline unit rest).size)) := by
  rw [(covers_firstToken hsymbols).2]
  show (site.text.drop site.start).take (TextRange.sized _ _).length = _
  rw [TextRange.length_sized]

/-- A string begins with the spelling of its quote, and unless it is partial it ends with one. -/
theorem delimitedAs_firstToken {multiline : Bool} {unit : Symbol} {rest : List Symbol}
    {site : Site} (hsymbols : site.symbols = unit :: rest)
    (hkind : (site.firstToken multiline unit rest).token.kind = .string) :
    ∃ quote opening content closing, (site.firstToken multiline unit rest).token.DelimitedAs
      site.text quote opening content closing := by
  obtain ⟨quote, hquote, rfl⟩ := Lexeme.isQuote_of_string hkind
  have htext := text_firstToken multiline hsymbols
  have hlexeme : Lexeme.first multiline (.char quote) rest =
      .literal .string 0 (stringEnd multiline quote rest) := Lexeme.ofChar_quote hquote _ _
  have hpartial : (site.firstToken multiline (.char quote) rest).token.flags.isPartial =
      !(stringEnd multiline quote rest).closed := by
    show (Lexeme.first multiline (.char quote) rest).isPartial = _
    rw [hlexeme]
    rfl
  obtain ⟨opening, glyphs, hglyphs, hopening, hrest⟩ := List.map_eq_cons_iff.1 hsymbols
  have hfirst := Glyph.spells_take hglyphs hopening
  rw [hlexeme, Lexeme.literal_size, hglyphs, Nat.add_comm, List.take_succ_cons,
    Glyph.totalWidth_cons, List.take_add] at htext
  cases hclosed : (stringEnd multiline quote rest).closed with
  | false =>
      refine ⟨quote, _, _, [], hquote, htext.trans (List.append_nil _).symm, hfirst, ?_⟩
      simp [hpartial, hclosed]
  | true =>
      obtain ⟨inner, behind, hinner, hsize⟩ := Symbol.closed_stringEnd hclosed
      obtain ⟨between, tail, rfl, rfl, htail⟩ := List.map_eq_append_iff.1 (hrest.trans hinner)
      obtain ⟨closing, others, rfl, hclosing, -⟩ := List.map_eq_cons_iff.1 htail
      have hunits : Glyph.decode (site.text.drop site.start) =
          (opening :: between) ++ closing :: others := hglyphs
      have hlast := Glyph.spells_take (Glyph.decode_behind hunits) hclosing
      have hown : (between ++ closing :: others).take (stringEnd multiline quote rest).size =
          between ++ [closing] := by
        rw [hsize, List.length_map, List.take_length_add_append]
        rfl
      rw [hown, Glyph.totalWidth_append, List.take_add] at htext
      refine ⟨quote, _, _, _, hquote, htext.trans (List.append_assoc _ _ _).symm, hfirst, ?_⟩
      rw [Glyph.totalWidth_cons, ← List.drop_drop] at hlast
      rw [hpartial, hclosed, if_neg (by simp), Glyph.totalWidth_cons, Glyph.totalWidth_nil]
      exact hlast

end Site

/-! ## Strings in the tree -/

namespace Quotation

variable {quote c : Char} {text content : List Char}

theorem isQuotedBy_cons (quote c : Char) (rest : List Char) :
    isQuotedBy quote (c :: rest) = (c == quote && rest.getLast? == some quote) := by
  unfold isQuotedBy
  cases rest with
  | nil => simp
  | cons next rest => simp

def isQuoted (text : List Char) : Bool :=
  isQuotedBy '"' text || isQuotedBy '\'' text

theorem isQuoted_cons (h : IsQuote quote) (rest : List Char) :
    isQuoted (quote :: rest) = (rest.getLast? == some quote) := by
  unfold isQuoted
  rw [isQuotedBy_cons, isQuotedBy_cons]
  rcases h with rfl | rfl <;> simp

theorem isQuoted_backslash (rest : List Char) : isQuoted ('\\' :: rest) = false := by
  unfold isQuoted
  rw [isQuotedBy_cons, isQuotedBy_cons]
  rfl

theorem value_of_quoted (h : isQuoted text = true) : value text = inner text :=
  if_pos h

theorem unquote_of_quoted (h : isQuoted text = true) : unquote text = inner text :=
  if_pos h

theorem value_of_not_quoted (h : isQuoted text = false) : value text = text :=
  if_neg (Bool.eq_false_iff.1 h)

theorem unquote_of_not_quoted (h : isQuoted text = false) : unquote text = text.drop 1 :=
  if_neg (Bool.eq_false_iff.1 h)

theorem inner_ne (h : text ≠ []) : inner text ≠ text := by
  intro hsame
  have hlength := congrArg List.length hsame
  have hpos := List.length_pos_iff.2 h
  unfold inner at hlength
  rw [List.length_dropLast, List.length_drop] at hlength
  omega

theorem interpolated_of_not_quoted (h : isQuoted text = false) (offset : Int) :
    Node.interpolated offset text = [] := by
  have hdouble : isQuotedBy '"' text = false := (Bool.or_eq_false_iff.1 h).1
  unfold Node.interpolated
  rw [hdouble]
  rfl

end Quotation

namespace Token

open Quotation (isQuoted)

variable {source : List Char} {token : Token} {quote : Char}
  {opening content closing : List Char}

theorem label?_string (offset : Int) (text : List Char) :
    (Node.string offset text).label? = some (Quotation.value text) :=
  rfl

/-- A string in which the tree finds both quotes must have them. -/
theorem agreesOn_of_isQuoted (htext : token.text source ≠ [])
    (hquoted : isQuoted (token.text source) = true) :
    token.AgreesOn source content ↔
      token.flags.isPartial = false ∧ Quotation.inner (token.text source) = content := by
  have hinner := Quotation.inner_ne htext
  constructor
  · rintro ⟨hliteral, hunquote⟩
    rw [Quotation.unquote_of_quoted hquoted] at hunquote
    refine ⟨Bool.eq_false_iff.2 fun hpartial => ?_, hunquote⟩
    have hkept := hliteral 0
    dsimp only at hkept
    rw [label?_string, Quotation.value_of_quoted hquoted, if_pos hpartial] at hkept
    exact hinner (Option.some.inj hkept.1)
  · rintro ⟨hclosed, hcontent⟩
    refine ⟨fun offset => ?_, (Quotation.unquote_of_quoted hquoted).trans hcontent⟩
    dsimp only
    rw [label?_string, Quotation.value_of_quoted hquoted, hclosed, if_neg Bool.false_ne_true]
    exact ⟨congrArg some hcontent, fun hsame => hinner (Option.some.inj hsame)⟩

/-- A string in which the tree does not find both quotes must lack one. -/
theorem agreesOn_of_not_isQuoted (hquoted : isQuoted (token.text source) = false) :
    token.AgreesOn source content ↔
      token.flags.isPartial = true ∧ (token.text source).drop 1 = content := by
  constructor
  · rintro ⟨hliteral, hunquote⟩
    rw [Quotation.unquote_of_not_quoted hquoted] at hunquote
    refine ⟨Bool.of_not_eq_false fun hclosed => ?_, hunquote⟩
    have hstripped := hliteral 0
    dsimp only at hstripped
    rw [label?_string, Quotation.value_of_not_quoted hquoted, hclosed,
      if_neg Bool.false_ne_true] at hstripped
    exact hstripped.2 rfl
  · rintro ⟨hpartial, hcontent⟩
    refine ⟨fun offset => ?_, (Quotation.unquote_of_not_quoted hquoted).trans hcontent⟩
    dsimp only
    rw [label?_string, Quotation.value_of_not_quoted hquoted, if_pos hpartial]
    exact ⟨rfl, Quotation.interpolated_of_not_quoted hquoted offset⟩

/-- The tree agrees with the lexer where it finds both quotes of a string that has them, and
only there, and what it takes off then leaves the content. -/
theorem agreesOn_iff_isQuoted (htext : token.text source ≠ []) :
    token.AgreesOn source content ↔
      isQuoted (token.text source) = !token.flags.isPartial ∧
        if token.flags.isPartial then (token.text source).drop 1 = content
        else Quotation.inner (token.text source) = content := by
  cases hquoted : isQuoted (token.text source) with
  | true =>
      rw [agreesOn_of_isQuoted htext hquoted]
      cases token.flags.isPartial <;> simp
  | false =>
      rw [agreesOn_of_not_isQuoted hquoted]
      cases token.flags.isPartial <;> simp

/-- No quote is a hexadecimal digit. -/
theorem hexValue?_quote (h : IsQuote quote) : Glyph.hexValue? quote = none := by
  rcases h with rfl | rfl <;> decide

/-- The tree agrees with the lexer on a string exactly where the quotes are spelled as they are
and a string without its quote does not end with one. -/
theorem DelimitedAs.agreesOn_iff (h : token.DelimitedAs source quote opening content closing) :
    token.AgreesOn source content ↔ opening = [quote] ∧
      if token.flags.isPartial then content.getLast? ≠ some quote else closing = [quote] := by
  obtain ⟨hquote, htext, hopening, hclosing⟩ := h
  by_cases hplain : opening = [quote]
  · have hcons : token.text source = quote :: (content ++ closing) := by
      rw [htext, hplain, List.append_assoc, List.singleton_append]
    have hnonempty : token.text source ≠ [] := by
      rw [hcons]
      exact List.cons_ne_nil _ _
    rw [agreesOn_iff_isQuoted hnonempty, hcons, Quotation.isQuoted_cons hquote]
    cases hpartial : token.flags.isPartial with
    | true =>
        rw [hpartial, if_pos rfl] at hclosing
        simp [hplain, hclosing]
    | false =>
        rw [hpartial, if_neg Bool.false_ne_true] at hclosing
        by_cases hlast : closing = [quote]
        · simp [hplain, hlast, Quotation.inner]
        · obtain ⟨body, digit, rfl, -, hdigit⟩ := hclosing.escape hlast
          have hother : digit ≠ quote := by
            rintro rfl
            exact hdigit (hexValue?_quote hquote)
          have hend : ('\\' :: (body ++ [digit])).getLast? = some digit := by
            rw [← List.cons_append, List.getLast?_concat]
          simp [hplain, hlast, hend, hother]
  · obtain ⟨body, digit, rfl, hlong, -⟩ := hopening.escape hplain
    have hcons : token.text source = '\\' :: (body ++ [digit] ++ content ++ closing) := by
      rw [htext]
      simp
    have hnonempty : token.text source ≠ [] := by
      rw [hcons]
      exact List.cons_ne_nil _ _
    rw [agreesOn_iff_isQuoted hnonempty, hcons, Quotation.isQuoted_backslash]
    cases hpartial : token.flags.isPartial with
    | true =>
        rw [hpartial, if_pos rfl] at hclosing
        refine iff_of_false (fun hagrees => ?_) fun hsame => hplain hsame.1
        have hlength := congrArg List.length hagrees.2
        simp [hclosing] at hlength
        omega
    | false => exact iff_of_false (fun hagrees => by cases hagrees.1) fun hsame => hplain hsame.1

end Token

namespace TokenStream

/-- The lexer delimits each string of a text.  The tree agrees with it on where, unless one of the
quotes is spelled by an escape, or a string that lacks its quote ends with an escaped one. -/
theorem lex_delimits_strings (multiline : Bool) (source : List Char) :
    ∀ token ∈ (lex multiline source).tokens, token.kind = .string →
      (∃ quote opening content closing,
        token.DelimitedAs source quote opening content closing) ∧
      ∀ quote opening content closing,
        token.DelimitedAs source quote opening content closing →
          (token.AgreesOn source content ↔ opening = [quote] ∧
            if token.flags.isPartial then content.getLast? ≠ some quote
            else closing = [quote]) := by
  have hlexed : ∀ placed ∈ (Site.ofText source).lexed multiline,
      placed.token.kind = .string → ∃ quote opening content closing,
        placed.token.DelimitedAs source quote opening content closing := by
    apply Site.forall_lexed
    intro here unit rest htext hsymbols hkind
    have hdelimited := Site.delimitedAs_firstToken hsymbols hkind
    rwa [htext] at hdelimited
  intro token htoken hkind
  rw [lex_eq_lexed] at htoken
  obtain ⟨placed, hplaced, rfl⟩ := List.mem_map.1 htoken
  exact ⟨hlexed placed hplaced hkind, fun _ _ _ _ hdelimited => hdelimited.agreesOn_iff⟩

def twoStrings : List Char :=
  ['\'', 'a', '\'', '"', 'b']

/-- The tree takes both strings as the lexer does. -/
theorem lex_delimits_strings_twoStrings :
    ∃ closed broken, (lex false twoStrings).tokens = [closed, broken] ∧
      closed.flags.isPartial = false ∧ closed.AgreesOn twoStrings ['a'] ∧
      broken.flags.isPartial = true ∧ broken.AgreesOn twoStrings ['b'] := by
  have hlength : (lex false twoStrings).tokens.length = 2 := by decide +kernel
  obtain ⟨closed, broken, htokens⟩ := List.length_eq_two.1 hlength
  have hfacts : (lex false twoStrings).tokens.map (fun token =>
      (token.kind, token.flags.isPartial, token.text twoStrings)) =
        [(.string, false, ['\'', 'a', '\'']), (.string, true, ['"', 'b'])] := by
    decide +kernel
  rw [htokens] at hfacts
  simp only [List.map_cons, List.map_nil, List.cons.injEq, Prod.mk.injEq, and_true] at hfacts
  obtain ⟨⟨hkind, hclosed, htext⟩, hkind', hbroken, htext'⟩ := hfacts
  have hmem : closed ∈ (lex false twoStrings).tokens := by simp [htokens]
  have hmem' : broken ∈ (lex false twoStrings).tokens := by simp [htokens]
  have hdelimited : closed.DelimitedAs twoStrings '\'' ['\''] ['a'] ['\''] :=
    ⟨.inl rfl, htext, .inl rfl, by rw [hclosed]; exact .inl rfl⟩
  have hdelimited' : broken.DelimitedAs twoStrings '"' ['"'] ['b'] [] :=
    ⟨.inr rfl, htext', .inl rfl, by rw [hbroken]; rfl⟩
  refine ⟨closed, broken, htokens, hclosed, ?_, hbroken, ?_⟩
  · apply ((lex_delimits_strings false twoStrings closed hmem hkind).2 _ _ _ _ hdelimited).2
    rw [hclosed]
    exact ⟨rfl, rfl⟩
  · apply ((lex_delimits_strings false twoStrings broken hmem' hkind').2 _ _ _ _ hdelimited').2
    rw [hbroken]
    exact ⟨rfl, by decide⟩

def escapedQuote : List Char :=
  ['"', 'b', '\\', '"']

/-- The tree takes the escaped quote for the one that is missing. -/
theorem lex_delimits_strings_escapedQuote :
    ∃ token, (lex false escapedQuote).tokens = [token] ∧ token.kind = .string ∧
      token.flags.isPartial = true ∧
      token.DelimitedAs escapedQuote '"' ['"'] ['b', '\\', '"'] [] ∧
      (∀ offset, (Node.string offset (token.text escapedQuote)).label? = some ['b', '\\']) ∧
      Quotation.unquote (token.text escapedQuote) = ['b', '\\'] ∧
      ¬ token.AgreesOn escapedQuote ['b', '\\', '"'] := by
  have hlength : (lex false escapedQuote).tokens.length = 1 := by decide +kernel
  obtain ⟨token, htokens⟩ := List.length_eq_one_iff.1 hlength
  have hfacts : (lex false escapedQuote).tokens.map (fun token =>
      (token.kind, token.flags.isPartial, token.text escapedQuote)) =
        [(.string, true, ['"', 'b', '\\', '"'])] := by
    decide +kernel
  rw [htokens] at hfacts
  simp only [List.map_cons, List.map_nil, List.cons.injEq, Prod.mk.injEq, and_true] at hfacts
  obtain ⟨hkind, hpartial, htext⟩ := hfacts
  have hunquote : Quotation.unquote (token.text escapedQuote) = ['b', '\\'] := by
    rw [htext]
    decide
  refine ⟨token, htokens, hkind, hpartial, ?_, fun offset => ?_, hunquote, fun hagrees => ?_⟩
  · exact ⟨.inr rfl, htext, .inl rfl, by rw [hpartial]; rfl⟩
  · show some (Quotation.value (token.text escapedQuote)) = _
    rw [htext]
    decide
  · exact absurd (hunquote.symm.trans hagrees.unquote) (by decide)

end TokenStream

end Manifest
