import Manifest.Proofs.Lexing.Grammar

/-!
# What the flags of a token say

A token shares the spelling of its kind exactly if the text has it there.  Its flags say which
escapes are among its own units: those of the text, which spell a unit by its code, and the
backslashes of a string or of a regular expression.
-/

namespace Manifest

/-! ## Backslashes among the units -/

namespace Symbol

variable {multiline : Bool} {quote : Char} {unit : Symbol} {rest : List Symbol}

theorem isNewline_of_mem_lineBreak {row : List Symbol} (h : unit ∈ row.take (lineBreakSize row)) :
    unit.isNewline = true := by
  unfold lineBreakSize at h
  split at h
  · rcases List.mem_cons.1 h with rfl | h
    · rfl
    · rw [List.mem_singleton.1 h]
      rfl
  · rw [List.mem_singleton.1 h]
    rfl
  · rw [List.mem_singleton.1 h]
    rfl
  · cases h

theorem backslash_notMem_lineBreak (row : List Symbol) :
    .char '\\' ∉ row.take (lineBreakSize row) := by
  intro h
  cases isNewline_of_mem_lineBreak h

theorem escaped_stringEnd (hquote : quote ≠ '\\') (rest : List Symbol) :
    (stringEnd multiline quote rest).escaped = true ↔
      .char '\\' ∈ rest.take (stringEnd multiline quote rest).size := by
  fun_induction stringEnd multiline quote rest with
  | case1 => simp [LiteralEnd.leaveOpen]
  | case2 rest => simp [LiteralEnd.close, hquote.symm]
  | case3 => simp [LiteralEnd.withEscape, LiteralEnd.leaveOpen]
  | case4 hclose next rest ih =>
      rw [LiteralEnd.withEscape, LiteralEnd.after, Nat.add_comm]
      simp
  | case5 unit rest hclose hother hnewline =>
      simp [LiteralEnd.leaveOpen, backslash_notMem_lineBreak]
  | case6 unit rest hclose hother hnewline ih =>
      rw [LiteralEnd.after, ih, Nat.add_comm, List.take_succ_cons, List.mem_cons]
      exact ⟨.inr, fun h => h.resolve_left (Ne.symm hother)⟩

theorem escaped_regexpEnd (rest : List Symbol) :
    (regexpEnd rest).escaped = true ↔ .char '\\' ∈ rest.take (regexpEnd rest).size := by
  fun_induction regexpEnd rest with
  | case1 => simp [LiteralEnd.leaveOpen]
  | case2 unit rest hnewline => simp [LiteralEnd.leaveOpen, backslash_notMem_lineBreak]
  | case3 rest hnewline => simp [LiteralEnd.close]
  | case4 => simp [LiteralEnd.withEscape, LiteralEnd.leaveOpen]
  | case5 hother hclose next rest hnewline =>
      rw [LiteralEnd.withEscape, LiteralEnd.leaveOpen, Nat.add_comm]
      simp
  | case6 hother hclose next rest hnewline ih =>
      rw [LiteralEnd.withEscape, LiteralEnd.after, Nat.add_comm]
      simp
  | case7 unit rest hnewline hclose hother ih =>
      rw [LiteralEnd.after, ih, Nat.add_comm, List.take_succ_cons, List.mem_cons]
      exact ⟨.inr, fun h => h.resolve_left (Ne.symm hother)⟩

end Symbol

namespace Lexeme

variable {multiline : Bool} {kind : TokenKind} {lexeme : Lexeme} {row rest : List Symbol}

/-- The lexeme is marked exactly if it is a literal with a backslash among its units. -/
def Marked (lexeme : Lexeme) (row : List Symbol) : Prop :=
  lexeme.hasEscape = true ↔
    (lexeme.kind = .string ∨ lexeme.kind = .regexp) ∧ .char '\\' ∈ row.take lexeme.size

theorem marked_of_other (hescape : lexeme.hasEscape = false)
    (hkind : ¬(lexeme.kind = .string ∨ lexeme.kind = .regexp)) (row : List Symbol) :
    lexeme.Marked row := by
  constructor
  · intro htrue
    rw [hescape] at htrue
    cases htrue
  · exact fun hboth => (hkind hboth.1).elim

theorem marked_of_not_literal (hescape : lexeme.hasEscape = false)
    (hkind : lexeme.kind.isLiteral = false) (row : List Symbol) : lexeme.Marked row := by
  refine marked_of_other hescape ?_ row
  rintro (hstring | hregexp)
  · rw [hstring] at hkind
    cases hkind
  · rw [hregexp] at hkind
    cases hkind

/-- Behind an opening that is no backslash, the rest of the literal decides. -/
theorem marked_literal {ending : LiteralEnd} {opening : Symbol}
    (hkind : kind = .string ∨ kind = .regexp) (hopening : opening ≠ .char '\\')
    (h : ending.escaped = true ↔ .char '\\' ∈ rest.take ending.size) :
    (literal kind 0 ending).Marked (opening :: rest) := by
  have hmem : .char '\\' ∈ (opening :: rest).take (literal kind 0 ending).size ↔
      .char '\\' ∈ rest.take ending.size := by
    rw [literal_size, Nat.zero_add, Nat.add_comm, List.take_succ_cons, List.mem_cons]
    exact ⟨fun h => h.resolve_left hopening.symm, .inr⟩
  show ending.escaped = true ↔ _
  rw [h, hmem]
  exact ⟨fun hrest => ⟨hkind, hrest⟩, And.right⟩

theorem marked_slash (rest : List Symbol) : (slash rest).Marked (.char '/' :: rest) := by
  unfold slash
  split
  · rename_i rest
    refine marked_of_other ?_ (by simp [literal]) _
    fun_induction Symbol.blockCommentEnd rest with
    | case1 => rfl
    | case2 => rfl
    | case3 unit rest hother ih => exact ih
  · exact marked_literal (.inr rfl) (by decide) (Symbol.escaped_regexpEnd rest)

theorem marked_ofChar (multiline : Bool) (c : Char) :
    ∀ rest, (ofChar multiline c rest).Marked (.char c :: rest) := by
  apply ofChar_cases multiline c
    (motive := fun lexeme => ∀ rest, (lexeme rest).Marked (.char c :: rest))
  case hcomment => exact fun _ rest => marked_of_other rfl (by simp [whole]) _
  case hstring =>
    intro hquote rest
    have hother : c ≠ '\\' := by
      rcases hquote with rfl | rfl <;> decide
    exact marked_literal (.inl rfl) (fun hc => hother (Symbol.char.inj hc))
      (Symbol.escaped_stringEnd hother rest)
  case hslash =>
    rintro rfl rest
    exact marked_slash rest
  case hoperator =>
    intro kind hkind rest
    obtain ⟨spelling, hspelling⟩ :=
      spelling?_operatorFrom (PushBack.spelling?_of_operator? hkind) rest
    exact marked_of_not_literal (whole_operatorFrom _ _ _).2
      (TokenKind.isLiteral_of_spelling? hspelling) _
  case hseparator =>
    intro kind hkind rest
    exact marked_of_not_literal rfl
      (TokenKind.isLiteral_of_spelling? (PushBack.spelling?_of_separator? hkind)) _
  case hword =>
    exact fun _ rest => marked_of_not_literal (whole_word _ rest).2 (isLiteral_word _ rest) _
  all_goals
    intros
    exact marked_of_not_literal rfl rfl _

theorem marked_first (multiline : Bool) (unit : Symbol) (rest : List Symbol) :
    (first multiline unit rest).Marked (unit :: rest) := by
  apply first_cases multiline unit rest (motive := fun lexeme => lexeme.Marked (unit :: rest))
  case hchar =>
    rintro c rfl
    exact marked_ofChar multiline c rest
  all_goals exact fun extra => marked_of_not_literal rfl rfl _

end Lexeme

/-! ## The flags of a token -/

namespace Token

variable {source : List Char} {token : Token} {before own behind : List Glyph}

/-- The token covers the unit, which the text spells from `start` on. -/
def CoversGlyph (source : List Char) (token : Token) (start : Nat) (glyph : Glyph) : Prop :=
  ∃ left right, Glyph.decode source = left ++ glyph :: right ∧ Glyph.totalWidth left = start ∧
    token.offset ≤ start ∧ start + glyph.width ≤ token.stop

/-- What the flags of a token say of the text. -/
structure Flagged (source : List Char) (token : Token) : Prop where
  flyweight : token.flags.isFlyweight = true ↔ token.fixedText?.isSome = true
  shared : token.fixedText?.isSome = true ↔
    token.kind.spelling? = some (token.range.slice source) ∨
      (token.kind = .whitespace ∧ token.range.slice source = [' '])
  fixedText : ∀ text, token.fixedText? = some text → text = token.range.slice source
  unicodeEscape : token.flags.hasUnicodeEscape = true ↔ ∃ start glyph,
    token.CoversGlyph source start glyph ∧ Glyph.IsEscape ((source.drop start).take glyph.width)
  escape : token.flags.hasEscape = true ↔ (token.kind = .string ∨ token.kind = .regexp) ∧
    ∃ start glyph, token.CoversGlyph source start glyph ∧ glyph.symbol = .char '\\'

theorem coversGlyph_iff (hdecode : Glyph.decode source = before ++ (own ++ behind))
    (hoffset : token.offset = Glyph.totalWidth before)
    (hstop : token.stop = Glyph.totalWidth (before ++ own)) {start : Nat} {glyph : Glyph} :
    token.CoversGlyph source start glyph ↔ ∃ left right, own = left ++ glyph :: right ∧
      start = Glyph.totalWidth (before ++ left) := by
  constructor
  · rintro ⟨left, right, hsplit, rfl, hstart, hend⟩
    have hleft : left ++ [glyph] <+: Glyph.decode source := ⟨right, by rw [hsplit]; simp⟩
    obtain ⟨passed, rfl⟩ := Glyph.prefix_of_totalWidth_le ⟨_, hdecode.symm⟩
      ((List.prefix_append left [glyph]).trans hleft) (hoffset ▸ hstart)
    have hown : before ++ passed ++ [glyph] <+: before ++ own := by
      refine Glyph.prefix_of_totalWidth_le hleft ⟨behind, by rw [hdecode]; simp⟩ ?_
      rw [← hstop, Glyph.totalWidth_append]
      exact hend
    rw [List.append_assoc, List.prefix_append_right_inj] at hown
    obtain ⟨others, rfl⟩ := hown
    exact ⟨passed, others, by simp, rfl⟩
  · rintro ⟨left, right, rfl, rfl⟩
    refine ⟨before ++ left, right ++ behind, by rw [hdecode]; simp, rfl, ?_, ?_⟩
    · rw [hoffset, Glyph.totalWidth_append]
      exact Nat.le_add_right _ _
    · rw [hstop, Glyph.totalWidth_append, Glyph.totalWidth_append, Glyph.totalWidth_append,
        Glyph.totalWidth_cons]
      omega

theorem exists_coversGlyph_iff (hdecode : Glyph.decode source = before ++ (own ++ behind))
    (hoffset : token.offset = Glyph.totalWidth before)
    (hstop : token.stop = Glyph.totalWidth (before ++ own)) {test : Glyph → Prop} :
    (∃ start glyph, token.CoversGlyph source start glyph ∧ test glyph) ↔
      ∃ glyph ∈ own, test glyph := by
  constructor
  · rintro ⟨start, glyph, hcovers, htest⟩
    obtain ⟨left, right, rfl, -⟩ := (coversGlyph_iff hdecode hoffset hstop).1 hcovers
    exact ⟨glyph, by simp, htest⟩
  · rintro ⟨glyph, hmem, htest⟩
    obtain ⟨left, right, hsplit⟩ := List.append_of_mem hmem
    exact ⟨_, glyph, (coversGlyph_iff hdecode hoffset hstop).2 ⟨left, right, hsplit, rfl⟩, htest⟩

theorem CoversGlyph.escaped_iff {start : Nat} {glyph : Glyph}
    (h : token.CoversGlyph source start glyph) :
    glyph.escaped = true ↔ Glyph.IsEscape ((source.drop start).take glyph.width) := by
  obtain ⟨left, right, hdecode, rfl, -⟩ := h
  exact Glyph.escaped_iff hdecode

theorem sharedSpelling?_eq_some_iff {kind : TokenKind} {glyphs : List Glyph}
    {spelling : List Char} :
    sharedSpelling? kind glyphs = some spelling ↔ kind.spelling? = some spelling ∨
      (kind = .whitespace ∧ Glyph.symbols glyphs = [.char ' '] ∧ spelling = [' ']) := by
  unfold sharedSpelling?
  cases hkind : kind.spelling? with
  | some shared =>
      refine ⟨.inl, fun h => h.elim id ?_⟩
      rintro ⟨rfl, -, -⟩
      cases hkind
  | none =>
      dsimp only
      split
      · rename_i hblank
        rw [Option.some.injEq]
        exact ⟨fun h => .inr ⟨hblank.1, hblank.2, h.symm⟩,
          fun h => (h.resolve_left nofun).2.2.symm⟩
      · rename_i hother
        refine ⟨nofun, fun h => ?_⟩
        obtain ⟨hblank, hspace, -⟩ := h.resolve_left nofun
        exact (hother ⟨hblank, hspace⟩).elim

theorem symbols_of_take {c : Char} (hplain : c ≠ '\\')
    (hdecode : Glyph.decode source = before ++ (own ++ behind))
    (hwidth : Glyph.totalWidth own = 1)
    (htake : (source.drop (Glyph.totalWidth before)).take 1 = [c]) :
    Glyph.symbols own = [.char c] := by
  have hahead := Glyph.decode_behind hdecode
  cases hrest : source.drop (Glyph.totalWidth before) with
  | nil =>
      rw [hrest] at htake
      cases htake
  | cons head rest =>
      rw [hrest] at hahead htake
      obtain rfl : head = c := (List.cons.inj htake).1
      have hfirst : Glyph.decode (head :: rest) = ⟨.char head, 1, false⟩ :: Glyph.decode rest := by
        rw [Glyph.decode_cons_drop, Glyph.first, if_neg hplain]
        rfl
      have hone : own = [⟨.char head, 1, false⟩] :=
        Glyph.eq_of_totalWidth ⟨behind, hahead.symm⟩ ⟨_, hfirst.symm⟩ hwidth
      rw [hone]
      rfl

/-- A token keeps the shared spelling exactly if the text has it there. -/
theorem isSome_fixedText?_iff {lexeme : Lexeme}
    (hdecode : Glyph.decode source = before ++ (own ++ behind))
    (htoken : token = place (Glyph.totalWidth before) own lexeme)
    (hfixed : ∀ text, token.fixedText? = some text → text = token.range.slice source)
    (hlength : (token.range.slice source).length = Glyph.totalWidth own) :
    token.fixedText?.isSome = true ↔
      token.kind.spelling? = some (token.range.slice source) ∨
        (token.kind = .whitespace ∧ token.range.slice source = [' ']) := by
  have hkeeps : ∀ text, token.fixedText? = some text ↔
      sharedSpelling? token.kind own = some text ∧ text.length = Glyph.totalWidth own := by
    intro text
    rw [htoken]
    exact Option.filter_eq_some_iff.trans (and_congr_right fun _ => beq_iff_eq)
  rw [Option.isSome_iff_exists]
  constructor
  · rintro ⟨text, htext⟩
    rw [← hfixed text htext]
    rcases sharedSpelling?_eq_some_iff.1 ((hkeeps text).1 htext).1 with hspelling | hblank
    · exact .inl hspelling
    · exact .inr ⟨hblank.1, hblank.2.2⟩
  · intro h
    refine ⟨_, (hkeeps _).2 ⟨sharedSpelling?_eq_some_iff.2 (h.imp_right ?_), hlength⟩⟩
    rintro ⟨hblank, hspace⟩
    rw [hspace] at hlength
    have htake : (source.drop token.offset).take token.range.length = [' '] := hspace
    have hone : token.range.length = 1 := by
      rw [htoken]
      exact (TextRange.length_sized _ _).trans hlength.symm
    rw [hone, htoken] at htake
    exact ⟨hblank, symbols_of_take (by decide) hdecode hlength.symm htake, hspace⟩

end Token

namespace TokenStream

variable {multiline : Bool} {source : List Char} {token : Token}

theorem flagged_lex (h : token ∈ (lex multiline source).tokens) : token.Flagged source := by
  obtain ⟨hone, htext⟩ := (tiles_lex multiline source).2 token h
  obtain ⟨-, hle⟩ := lex_between multiline source token h
  have hlength := Token.Covers.length_text ⟨hone, htext⟩ hle
  obtain ⟨before, own, behind, unit, rest, hdecode, hown, -, htoken⟩ := exists_place h
  have hoffset : token.offset = Glyph.totalWidth before := by
    rw [htoken]
    rfl
  have hstop : token.stop = Glyph.totalWidth (before ++ own) := by
    rw [htoken]
    exact (Glyph.totalWidth_append before own).symm
  have hfixed : ∀ text, token.fixedText? = some text → text = token.range.slice source := by
    intro text hfixed
    rw [← htext, Token.text, hfixed]
    rfl
  refine ⟨?_, Token.isSome_fixedText?_iff hdecode htoken hfixed ?_, hfixed, ?_, ?_⟩
  · rw [htoken]
    exact Iff.rfl
  · rw [Glyph.totalWidth_append] at hstop
    rw [← htext]
    omega
  · have hflag : token.flags.hasUnicodeEscape = own.any Glyph.escaped := by
      rw [htoken]
      rfl
    rw [hflag, List.any_eq_true, ← Token.exists_coversGlyph_iff hdecode hoffset hstop]
    exact exists_congr fun start => exists_congr fun glyph =>
      and_congr_right fun hglyph => hglyph.escaped_iff
  · have hmarked := Lexeme.marked_first multiline unit rest
    rw [Lexeme.Marked, ← hown] at hmarked
    have hflag : token.flags.hasEscape = (Lexeme.first multiline unit rest).hasEscape := by
      rw [htoken]
      rfl
    have hkind : token.kind = (Lexeme.first multiline unit rest).kind := by
      rw [htoken]
      rfl
    rw [hflag, hkind, hmarked]
    rw [Token.exists_coversGlyph_iff hdecode hoffset hstop, Glyph.symbols, List.mem_map]

/-- The flags of every token are what the text says of it. -/
theorem lex_flags (multiline : Bool) (source : List Char) :
    PushBack.lex multiline source = .ok (lex multiline source) ∧
      ∀ token ∈ (lex multiline source).tokens, token.Flagged source :=
  ⟨PushBack.lex_eq multiline source, fun _ => flagged_lex⟩

def writtenFlags : List Char :=
  "if \\u0069f'\\u005cn'".toList

theorem lex_flags_writtenFlags :
    ∃ plain blank escaped string,
      (lex false writtenFlags).tokens = [plain, blank, escaped, string] ∧
      plain.kind.spelling? = some (plain.range.slice writtenFlags) ∧
      blank.range.slice writtenFlags = [' '] ∧
      escaped.kind.spelling? ≠ some (escaped.range.slice writtenFlags) ∧
      (∃ start glyph, escaped.CoversGlyph writtenFlags start glyph ∧
        Glyph.IsEscape ((writtenFlags.drop start).take glyph.width)) ∧
      (∃ start glyph, string.CoversGlyph writtenFlags start glyph ∧
        glyph.symbol = .char '\\') := by
  have hfacts : (lex false writtenFlags).tokens.map (fun token =>
      (token.fixedText?, token.flags.hasUnicodeEscape, token.flags.hasEscape)) =
        [(some ['i', 'f'], false, false), (some [' '], false, false), (none, true, false),
          (none, true, true)] := by
    decide +kernel
  simp only [List.map_eq_cons_iff, List.map_eq_nil_iff, Prod.mk.injEq] at hfacts
  obtain ⟨plain, _, htokens, ⟨hplain, -⟩, blank, _, rfl, ⟨hblank, -⟩, escaped, _, rfl,
    ⟨hescaped, hunicode, -⟩, string, _, rfl, ⟨-, -, hstring⟩, rfl⟩ := hfacts
  have hflagged := (lex_flags false writtenFlags).2
  have hplain' := hflagged plain (by simp [htokens])
  have hescaped' := hflagged escaped (by simp [htokens])
  refine ⟨plain, blank, escaped, string, htokens, ?_, ?_, fun hspelling => ?_,
    hescaped'.unicodeEscape.1 hunicode, ?_⟩
  · rcases hplain'.shared.1 (by rw [hplain]; rfl) with hspelling | ⟨-, hspace⟩
    · exact hspelling
    · rw [← hplain'.fixedText _ hplain] at hspace
      cases hspace
  · exact ((hflagged blank (by simp [htokens])).fixedText _ hblank).symm
  · have hshared := hescaped'.shared.2 (.inl hspelling)
    rw [hescaped] at hshared
    cases hshared
  · exact ((hflagged string (by simp [htokens])).escape.1 hstring).2

end TokenStream

end Manifest
