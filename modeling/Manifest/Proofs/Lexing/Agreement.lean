import Manifest.Proofs.Lexing.Words

/-!
# The two lexers agree

Lexing by push-back gives the tokens of the lexical grammar on symbols, for every
text.  No step of the reader is refused, and no loop runs out of steps.
-/

namespace Manifest

namespace Site

def lexed (multiline : Bool) (site : Site) : List LexedToken :=
  LexedToken.placeAll site.start site.glyphs (Lexeme.all multiline site.symbols)

def firstToken (multiline : Bool) (site : Site) (unit : Symbol) (rest : List Symbol) :
    LexedToken :=
  let lexeme := Lexeme.first multiline unit rest
  .place site.start (site.glyphs.take lexeme.size) lexeme

def behind (multiline : Bool) (site : Site) (unit : Symbol) (rest : List Symbol) : Site :=
  site.after (Lexeme.first multiline unit rest).size

variable {multiline : Bool} {unit : Symbol} {rest : List Symbol}

theorem lexed_nil (site : Site) (h : site.symbols = []) : site.lexed multiline = [] := by
  unfold lexed
  rw [h]
  rfl

theorem lexed_cons (site : Site) (h : site.symbols = unit :: rest) :
    site.lexed multiline =
      site.firstToken multiline unit rest :: (site.behind multiline unit rest).lexed multiline := by
  unfold lexed behind
  rw [symbols_after, glyphs_after, h, Lexeme.all_cons]
  rfl

theorem length_glyphs_after (site : Site) (multiline : Bool) (h : site.symbols = unit :: rest) :
    (site.behind multiline unit rest).glyphs.length < site.glyphs.length := by
  have hlength := congrArg List.length h
  rw [Reader.length_symbols, List.length_cons] at hlength
  unfold behind Lexeme.size
  rw [glyphs_after, List.length_drop]
  omega

end Site

namespace PushBack

open Manifest.Symbol (headUnit goesOn identifierSize)

variable {site : Site} {reader : Reader} {unit : Symbol} {rest : List Symbol} {extra steps : Nat}

theorem length_symbols_le (h : site.symbols = unit :: rest) :
    1 + rest.length ≤ site.glyphs.length := by
  have hlength := congrArg List.length h
  rw [Reader.length_symbols, List.length_cons] at hlength
  omega

theorem length_symbols_lt_bound {count : Nat} (h : reader.At site count rest)
    (hsymbols : site.symbols = unit :: rest) : (unit :: rest).length < bound reader := by
  have hlength := length_symbols_le hsymbols
  have hbound := h.length_glyphs_le
  unfold bound
  rw [List.length_cons]
  omega

/-! ## Words and strays -/

theorem word_gives {c : Char} (h : reader.At site 1 rest)
    (hsymbols : site.symbols = .char c :: rest) (hstart : isIdentifierStart c = true) :
    Gives site (word (.char c) reader) (Lexeme.word (.char c) rest) := by
  have hlength := length_symbols_le hsymbols
  have hsteps := length_symbols_lt_bound h hsymbols
  unfold word Lexeme.word
  cases hstep : stepBy? keywordTrie (some (.char c)) with
  | some node =>
      obtain ⟨-, hspelled⟩ := spelled_find? spelled_keywordTrie hstep
      have hrest : rest.length < bound reader := Nat.lt_of_succ_lt hsteps
      have hword := wordFrom_gives h hrest hlength hspelled
      rw [keyword?_step rest hstep]
      unfold wordAt at hword
      cases hkeyword : Symbol.keyword? node rest with
      | none =>
          rw [hkeyword] at hword
          simpa only [Option.map_none, Nat.zero_add] using hword
      | some found =>
          rw [hkeyword] at hword
          simpa only [Option.map_some, List.drop_succ_cons, Nat.zero_add,
            Nat.add_sub_cancel] using hword
  | none =>
      have hgoes : goesOn (.char c :: rest) = true := isIdentifierPart_of_start hstart
      have hsize : identifierSize (.char c :: rest) = 1 + identifierSize rest :=
        Symbol.identifierSize_goesOn hgoes
      have hkeyword : Symbol.keyword? keywordTrie (.char c :: rest) = none := by
        rw [keyword?_stop hstep, if_pos hgoes]
      have hpeeked : Peeked site 0 (.char c :: rest) (some (.char c)) reader := .inl ⟨rfl, h⟩
      have hextra : identifierSize rest + 1 = 0 + identifierSize (.char c :: rest) := by omega
      have hname := identifier_gives hpeeked hsteps (by rw [List.length_cons]; omega) hextra
      rw [hkeyword]
      rwa [Glyph.reach_zero] at hname

theorem stray_name_gives {bits lowBits : Fin 0x400}
    (h : reader.At site 1 (.low lowBits :: rest))
    (hsymbols : site.symbols = .high bits :: .low lowBits :: rest)
    (hstart : isIdentifierStart (Symbol.joined bits lowBits) = true) :
    Gives site (stray (.high bits) reader) (.whole .identifier (1 + identifierSize rest)) := by
  have hlength := length_symbols_le hsymbols
  have hsteps := length_symbols_lt_bound h hsymbols
  have hpeeked : Peeked site 0 (.high bits :: .low lowBits :: rest) (some (.high bits)) reader :=
    .inl ⟨rfl, h⟩
  obtain ⟨after, hjoin, hafter, hjoined⟩ := joinHalves_peeked hpeeked
  have hbound : bound after = bound reader := by
    unfold bound
    rw [hafter.text_eq, h.text_eq]
  have hsize : identifierSize (.high bits :: .low lowBits :: rest) = 2 + identifierSize rest := by
    rw [identifierSize, if_pos (isIdentifierPart_of_start hstart)]
  have hextra : 1 + identifierSize rest + 1 =
      0 + identifierSize (.high bits :: .low lowBits :: rest) := by omega
  have hname := identifier_gives hjoined (hbound ▸ hsteps) (by rw [List.length_cons]; omega) hextra
  have hpart : ((headUnit (.high bits :: .low lowBits :: rest)).1).any
      Symbol.isIdentifierStart = true := hstart
  unfold stray
  simp only [hjoin, except_ok_bind, hpart, if_true]
  rwa [Glyph.reach_zero] at hname

theorem stray_error_gives (h : reader.At site 1 rest) (hsymbols : site.symbols = unit :: rest)
    (hstop : (headUnit (unit :: rest)).1.any Symbol.isIdentifierStart = false)
    (hextra : (headUnit (unit :: rest)).2 = extra + 1) (hwide : extra ≤ rest.length) :
    Gives site (stray unit reader) (.whole .error extra) := by
  have hlength := length_symbols_le hsymbols
  have hpeeked : Peeked site 0 (unit :: rest) (some unit) reader := .inl ⟨rfl, h⟩
  obtain ⟨after, hjoin, hafter, -⟩ := joinHalves_peeked hpeeked
  rw [hextra, Nat.zero_add] at hafter
  have htook : after.Took site (Lexeme.whole .error extra).size
      ((unit :: rest).drop (extra + 1)) := hafter.took (by omega)
  have hshared : (none : Option (List Char)).or TokenKind.error.spelling? =
      Token.sharedSpelling? .error (site.glyphs.take (extra + 1)) :=
    (sharedSpelling?_of_ne (show TokenKind.error ≠ .whitespace by decide) _).symm
  unfold stray
  simp only [hjoin, except_ok_bind, hstop, Bool.false_eq_true, if_false]
  exact close_gives htook hshared rfl

/-! ## Tokens -/

theorem spelling?_of_separator? {spelling : List Char} {kind : TokenKind}
    (h : TokenKind.separator? spelling = some kind) : kind.spelling? = some spelling := by
  have hfound := List.find?_some h
  exact eq_of_beq hfound

theorem operatorFrom_zero (lexeme : Lexeme) :
    { lexeme with extra := 0 + lexeme.extra } = lexeme := by
  rw [Nat.zero_add]

/-- A space is read in a scanner of its own, and is a blank like others to the grammar. -/
theorem ofChar_space (multiline : Bool) (rest : List Symbol) :
    Lexeme.ofChar multiline ' ' rest =
      .whole .whitespace (Lexeme.runSize Symbol.isBlank rest) := by
  have hoperator : TokenKind.operator? [' '] = none := by decide
  have hseparator : TokenKind.separator? [' '] = none := by decide
  have hstart : isIdentifierStart ' ' = false := by decide +kernel
  have hblank : isBlank ' ' = true := by decide +kernel
  have hdigit : (Symbol.char ' ').isDigit = false := by decide
  unfold Lexeme.ofChar
  simp [hoperator, hseparator, hstart, hblank, hdigit]

theorem token_char_gives {c : Char} (multiline : Bool) (h : reader.At site 1 rest)
    (hsymbols : site.symbols = .char c :: rest) :
    Gives site (token multiline (.char c) reader) (Lexeme.ofChar multiline c rest) := by
  have hlength := length_symbols_le hsymbols
  have hbound := length_symbols_lt_bound h hsymbols
  rw [List.length_cons] at hbound
  have hsteps : rest.length < bound reader := Nat.lt_of_succ_lt hbound
  have htook : reader.Took site (0 + 1) rest := h.took (by omega)
  by_cases hspace : c = ' '
  · subst hspace
    rw [ofChar_space]
    exact space_gives htook hsymbols
  unfold token Lexeme.ofChar
  simp only [Symbol.char.injEq, hspace, if_false]
  by_cases hdigit : (Symbol.char c).isDigit = true
  · have hrun : Gives site (run Symbol.isDigit .int (bound reader) reader)
        (.whole .int (0 + Lexeme.runSize Symbol.isDigit rest)) :=
      run_gives htook hsteps (by decide) (sharedSpelling?_of_ne (by decide) _)
    rw [if_pos hdigit, if_pos hdigit]
    rwa [Nat.zero_add] at hrun
  rw [if_neg hdigit, if_neg hdigit]
  by_cases hhash : c = '#'
  · have hcomment := comment_gives htook hsteps
    rw [if_pos hhash, if_pos hhash]
    rwa [Nat.zero_add] at hcomment
  rw [if_neg hhash, if_neg hhash]
  have hstring : ∀ quote, Gives site (string multiline quote (bound reader) false reader)
      (.literal .string 0 (Symbol.stringEnd multiline quote rest)) :=
    fun quote => string_gives htook hsteps
  by_cases hsingle : c = '\''
  · rw [if_pos hsingle, if_pos (.inl hsingle), hsingle]
    exact hstring '\''
  rw [if_neg hsingle]
  by_cases hdouble : c = '"'
  · rw [if_pos hdouble, if_pos (.inr hdouble), hdouble]
    exact hstring '"'
  rw [if_neg hdouble, if_neg (not_or.2 ⟨hsingle, hdouble⟩)]
  by_cases hdollar : c = '$'
  · have hat : reader.At site (1 + 0) rest := h
    have hvariable := dollarName_gives hat hsteps (by omega) (.inl ⟨rfl, rfl⟩) (Nat.zero_add 1)
    rw [if_pos hdollar, if_pos hdollar]
    rwa [Nat.zero_add] at hvariable
  rw [if_neg hdollar, if_neg hdollar]
  by_cases hslash : c = '/'
  · rw [if_pos hslash, if_pos hslash]
    exact slash_gives htook
  rw [if_neg hslash, if_neg hslash]
  have hunits : operatorUnit? (.char c) =
      (if (TokenKind.operator? [c]).isSome then some [c] else none) ∧
        separatorUnit? (.char c) = TokenKind.separator? [c] := ⟨rfl, rfl⟩
  rw [hunits.1, hunits.2]
  cases hoperator : TokenKind.operator? [c] with
  | some kind =>
      have hgives := operator_gives htook hsteps hoperator
      rwa [operatorFrom_zero] at hgives
  | none =>
      cases hseparator : TokenKind.separator? [c] with
      | some kind =>
          obtain ⟨hblank, herror⟩ := proper_of_spelling? (spelling?_of_separator? hseparator)
          exact closeWhole_gives htook (sharedSpelling?_of_ne hblank _) herror
      | none =>
          simp only [Option.isSome_none, Bool.false_eq_true, if_false]
          by_cases hstart : isIdentifierStart c = true
          · rw [if_pos hstart]
            have hunit : (Symbol.char c).isIdentifierStart = true := hstart
            rw [if_pos hunit]
            exact word_gives h hsymbols hstart
          · rw [if_neg hstart]
            have hunit : ¬ (Symbol.char c).isIdentifierStart = true := hstart
            rw [if_neg hunit]
            by_cases hblank : isBlank c = true
            · have hunit : (Symbol.char c).isBlank = true := hblank
              rw [if_pos hblank, if_pos hunit]
              apply blanks_gives htook hsymbols
              intro hchar
              exact (hspace (Symbol.char.inj hchar)).elim
            · have hunit : ¬ (Symbol.char c).isBlank = true := hblank
              rw [if_neg hblank, if_neg hunit]
              have hstop : isIdentifierStart c = false := by simpa using hstart
              exact stray_error_gives h hsymbols hstop rfl (Nat.zero_le _)

theorem token_gives (multiline : Bool) (h : reader.At site 1 rest)
    (hsymbols : site.symbols = unit :: rest) :
    Gives site (token multiline unit reader) (Lexeme.first multiline unit rest) := by
  match unit, rest, h, hsymbols with
  | .char c, rest, h, hsymbols => exact token_char_gives multiline h hsymbols
  | .low bits, rest, h, hsymbols =>
      exact stray_error_gives h hsymbols rfl rfl (Nat.zero_le _)
  | .high bits, [], h, hsymbols =>
      exact stray_error_gives h hsymbols rfl rfl (Nat.zero_le _)
  | .high bits, .char c :: rest, h, hsymbols =>
      exact stray_error_gives h hsymbols rfl rfl (Nat.zero_le _)
  | .high bits, .high other :: rest, h, hsymbols =>
      exact stray_error_gives h hsymbols rfl rfl (Nat.zero_le _)
  | .high bits, .low lowBits :: rest, h, hsymbols =>
      show Gives site (stray (.high bits) reader) _
      rw [Lexeme.first]
      by_cases hstart : isIdentifierStart (Symbol.joined bits lowBits) = true
      · rw [if_pos hstart]
        exact stray_name_gives h hsymbols hstart
      · have hstop : isIdentifierStart (Symbol.joined bits lowBits) = false := by
          simpa using hstart
        rw [if_neg hstart]
        exact stray_error_gives h hsymbols hstop rfl (Nat.succ_pos _)

/-! ## Texts -/

/-- At the end of the text a reader stays where it is, however often it is asked. -/
theorem next_nil (multiline : Bool) (h : reader.At site 0 []) :
    ∃ after, next multiline reader = .ok (none, after) ∧ after.At site 0 [] := by
  obtain ⟨first, hread, hfirst, -⟩ := h.read
  obtain ⟨after, hreturn, hafter⟩ := hfirst.returnTo (Nat.zero_le 1)
  have hnil : site.symbols.drop 0 = [] := h.ahead_eq
  rw [Glyph.reach_zero] at hreturn
  rw [hnil] at hafter
  refine ⟨after, ?_, hafter⟩
  unfold next
  simp only [hread, List.head?_nil, except_ok_bind, hreturn]
  rfl

theorem next_cons (multiline : Bool) (h : reader.At site 0 site.symbols)
    (hsymbols : site.symbols = unit :: rest) :
    ∃ after, next multiline reader = .ok (some (site.firstToken multiline unit rest), after) ∧
      after.At (site.behind multiline unit rest) 0
        (site.behind multiline unit rest).symbols := by
  obtain ⟨first, hread, hfirst, -⟩ := h.read
  rw [hsymbols] at hread hfirst
  obtain ⟨after, htoken, hafter⟩ := token_gives multiline hfirst hsymbols
  refine ⟨after, ?_, hafter⟩
  unfold next
  simp only [hread, List.head?_cons, except_ok_bind, htoken]
  rfl

/-- Tokens are read one after the other, each from the site behind the one before. -/
theorem tokens_eq (multiline : Bool) (h : reader.At site 0 site.symbols)
    (hsteps : site.glyphs.length < steps) :
    tokens multiline steps reader = .ok (site.lexed multiline) := by
  induction steps generalizing site reader with
  | zero => omega
  | succ steps ih =>
      unfold tokens
      cases hsymbols : site.symbols with
      | nil =>
          rw [hsymbols] at h
          obtain ⟨after, hnext, -⟩ := next_nil multiline h
          rw [hnext, site.lexed_nil hsymbols]
          rfl
      | cons unit rest =>
          obtain ⟨after, hnext, hafter⟩ := next_cons multiline h hsymbols
          have hshorter := site.length_glyphs_after multiline hsymbols
          have hlexed := ih hafter (by omega)
          rw [hnext, site.lexed_cons hsymbols]
          simp only [except_ok_bind, hlexed]
          rfl

/-- Lexing by push-back is never refused a step, and gives the tokens of the grammar. -/
theorem lex_eq (multiline : Bool) (source : List Char) :
    lex multiline source = .ok (TokenStream.lex multiline source) := by
  have hstart := Reader.at_ofText source
  have hlexed := tokens_eq multiline hstart (Nat.lt_succ_of_le hstart.length_glyphs_le)
  unfold lex bound
  simp only [hlexed, except_ok_bind]
  rfl

end PushBack

end Manifest
