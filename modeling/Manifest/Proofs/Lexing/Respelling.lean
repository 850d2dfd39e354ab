import Manifest.Proofs.Lexing.JoinedWords
import Mathlib.Data.List.Forall2

/-!
# Texts that spell the same

Two texts that decode to the same characters are cut into the same tokens, however each
character is spelled: by itself, by an escape, or by the escapes of its two halves.
-/

namespace Manifest

namespace Reader

def units : Nat → Reader → Except LexFault (List Symbol)
  | 0, _ => .error .endless
  | steps + 1, reader => do
      let (unit?, reader) ← reader.readUnit
      match unit? with
      | none => return []
      | some unit => return unit :: (← units steps reader)

/-- What a reader yields from the start of a text to its end, with halves put together. -/
def decoded (text : List Char) : Except LexFault (List Symbol) := do
  let units ← units (text.length + 1) (ofText text)
  return Symbol.joinPairs units

theorem units_eq {site : Site} {reader : Reader} {count steps : Nat} {ahead : List Symbol}
    (h : reader.At site count ahead) (hsteps : ahead.length < steps) :
    units steps reader = .ok ahead := by
  induction steps generalizing reader count ahead with
  | zero => omega
  | succ steps ih =>
      obtain ⟨after, hread, hafter, -⟩ := h.read
      unfold units
      rw [hread]
      cases ahead with
      | nil => rfl
      | cons unit rest =>
          have hrest := ih hafter (by simpa using hsteps)
          simp only [List.head?_cons, except_ok_bind]
          rw [hrest]
          rfl

end Reader

namespace Glyph

open Manifest.Symbol (joinPairs Makes)

def spelled (text : List Char) : List Symbol :=
  joinPairs (symbols (decode text))

/-- A place in a text lies between two of the characters that the text spells, and is
behind the first `position` of them. -/
def StandsAt (text : List Char) (offset position : Nat) : Prop :=
  ∃ before after, decode text = before ++ after ∧ totalWidth before = offset ∧
    joinPairs (symbols before) = (spelled text).take position ∧
    joinPairs (symbols after) = (spelled text).drop position ∧
    position ≤ (spelled text).length

theorem decoded_eq (text : List Char) : Reader.decoded text = .ok (spelled text) := by
  have hstart := Reader.at_ofText text
  have hlength : (Site.ofText text).symbols.length < text.length + 1 := by
    rw [Reader.length_symbols]
    exact Nat.lt_succ_of_le hstart.length_glyphs_le
  unfold Reader.decoded
  rw [Reader.units_eq hstart hlength]
  rfl

theorem standsAt_of_makes {text : List Char} {count position : Nat}
    (h : Makes (symbols (decode text)) count position) :
    StandsAt text (totalWidth ((decode text).take count)) position := by
  refine ⟨(decode text).take count, (decode text).drop count,
    (List.take_append_drop count _).symm, rfl, ?_, ?_, h.le.2⟩
  · have htake : symbols ((decode text).take count) = (symbols (decode text)).take count :=
      List.map_take
    rw [htake]
    exact h.take
  · have hdrop : symbols ((decode text).drop count) = (symbols (decode text)).drop count :=
      List.map_drop
    rw [hdrop]
    exact h.drop

theorem StandsAt.unique {text : List Char} {offset position other : Nat}
    (h : StandsAt text offset position) (h' : StandsAt text offset other) : position = other := by
  rcases h with ⟨before, after, hdecode, hwidth, htake, -, hle⟩
  rcases h' with ⟨before', after', hdecode', hwidth', htake', -, hle'⟩
  have hnil : ∀ middle : List Glyph, (∀ glyph ∈ middle, glyph ∈ decode text) →
      totalWidth middle = 0 → middle = [] := by
    intro middle hmem hzero
    have hlength := length_le_totalWidth fun glyph hglyph =>
      width_pos_of_mem_decode (hmem glyph hglyph)
    exact List.eq_nil_of_length_eq_zero (by omega)
  have hsame : before = before' := by
    rcases List.append_eq_append_iff.1 (hdecode.symm.trans hdecode') with
      ⟨middle, hbefore, hafter⟩ | ⟨middle, hbefore, hafter⟩
    · subst hbefore
      rw [totalWidth_append] at hwidth'
      rw [hnil middle (fun glyph hglyph => by rw [hdecode]; simp [hafter, hglyph]) (by omega),
        List.append_nil]
    · subst hbefore
      rw [totalWidth_append] at hwidth
      rw [hnil middle (fun glyph hglyph => by rw [hdecode']; simp [hafter, hglyph]) (by omega),
        List.append_nil]
  have hlength := congrArg List.length (htake.symm.trans (hsame ▸ htake'))
  rw [List.length_take, List.length_take] at hlength
  omega

end Glyph

namespace Lexeme

def placedFrom : Nat → List Lexeme → List (Nat × Lexeme)
  | _, [] => []
  | position, lexeme :: lexemes =>
      (position, lexeme) :: placedFrom (position + lexeme.size) lexemes

end Lexeme

structure LexedToken.Spells (text : List Char) (lexed : LexedToken) (placed : Nat × Lexeme) :
    Prop where
  kind_eq : lexed.token.kind = placed.2.kind
  isPartial_eq : lexed.token.flags.isPartial = placed.2.isPartial
  hasEscape_eq : lexed.token.flags.hasEscape = placed.2.hasEscape
  start : Glyph.StandsAt text lexed.token.offset placed.1
  stop : Glyph.StandsAt text lexed.token.stop (placed.1 + placed.2.size)
  code_eq : lexed.diagnostic?.map Diagnostic.code = placed.2.finding?.map Finding.code

/-- Tokens of two texts agree in kind and in flags, and cover the same stretch of what the
texts spell. -/
structure Token.Corresponds (left right : List Char) (token other : Token) : Prop where
  kind_eq : token.kind = other.kind
  isPartial_eq : token.flags.isPartial = other.flags.isPartial
  hasEscape_eq : token.flags.hasEscape = other.flags.hasEscape
  stretch : ∃ start stop, start < stop ∧
    Glyph.StandsAt left token.offset start ∧ Glyph.StandsAt left token.stop stop ∧
    Glyph.StandsAt right other.offset start ∧ Glyph.StandsAt right other.stop stop

namespace Site

open Manifest.Symbol (joinPairs Makes)

variable {text : List Char} {multiline : Bool} {count position : Nat}

theorem start_ofText_after (text : List Char) (count : Nat) :
    ((ofText text).after count).start = Glyph.totalWidth ((Glyph.decode text).take count) :=
  Nat.zero_add _

theorem firstToken_spells (multiline : Bool) {unit next : Symbol} {rest more : List Symbol}
    (hmakes : Makes (Glyph.symbols (Glyph.decode text)) count position)
    (hsymbols : ((ofText text).after count).symbols = unit :: rest)
    (hjoined : joinPairs (unit :: rest) = next :: more) :
    (((ofText text).after count).firstToken multiline unit rest).Spells text
        (position, Lexeme.first multiline next more) ∧
      Makes (Glyph.symbols (Glyph.decode text))
        (count + (Lexeme.first multiline unit rest).size)
        (position + (Lexeme.first multiline next more).size) := by
  have halike := Lexeme.first_alike multiline hjoined
  have hbehind : Makes (Glyph.symbols (Glyph.decode text))
      (count + (Lexeme.first multiline unit rest).size)
      (position + (Lexeme.first multiline next more).size) := by
    refine hmakes.trans ?_
    have hrest : (Glyph.symbols (Glyph.decode text)).drop count = unit :: rest := by
      rw [← hsymbols, symbols_after]
      rfl
    rw [hrest]
    exact halike.makes
  have hstart := Glyph.standsAt_of_makes hmakes
  have hstop := Glyph.standsAt_of_makes hbehind
  rw [← start_ofText_after] at hstart hstop
  rw [← after_after] at hstop
  refine ⟨⟨halike.kind_eq, halike.isPartial_eq, halike.hasEscape_eq, hstart, hstop, ?_⟩, hbehind⟩
  show (Option.map _ (Lexeme.first multiline unit rest).finding?).map _ = _
  rw [Option.map_map, Lexeme.finding?, halike.kind_eq, halike.isPartial_eq]
  rfl

/-- The tokens from a site on spell the lexemes of what is left of the joined row. -/
theorem lexed_spells (hmakes : Makes (Glyph.symbols (Glyph.decode text)) count position) :
    List.Forall₂ (LexedToken.Spells text) (((ofText text).after count).lexed multiline)
      (Lexeme.placedFrom position (Lexeme.all multiline ((Glyph.spelled text).drop position))) := by
  -- `hmakes` carries over: the two lexemes at the head end at the same character.
  induction hlength : ((ofText text).after count).glyphs.length using Nat.strongRecOn
    generalizing count position with
  | ind length ih =>
      have hdrop := hmakes.drop
      have hrest : ((ofText text).after count).symbols =
          (Glyph.symbols (Glyph.decode text)).drop count := symbols_after _ count
      rw [← hrest] at hdrop
      cases hsymbols : ((ofText text).after count).symbols with
      | nil =>
          have hnil : (Glyph.spelled text).drop position = [] := by
            rw [hsymbols] at hdrop
            exact hdrop.symm
          rw [lexed_nil _ hsymbols, hnil]
          exact .nil
      | cons unit rest =>
          obtain ⟨next, more, hjoined⟩ : ∃ next more, joinPairs (unit :: rest) = next :: more := by
            apply List.exists_cons_of_ne_nil
            intro hnil
            cases Symbol.joinPairs_eq_nil hnil
          obtain ⟨hfirst, hbehind⟩ := firstToken_spells multiline hmakes hsymbols hjoined
          have hshorter := length_glyphs_after _ multiline hsymbols
          unfold behind at hshorter
          rw [after_after] at hshorter
          have htokens := ih _ (by omega) hbehind rfl
          have hahead : (Glyph.spelled text).drop position = next :: more := by
            rw [hsymbols, hjoined] at hdrop
            exact hdrop.symm
          have hmore : (Glyph.spelled text).drop
              (position + (Lexeme.first multiline next more).size) =
                more.drop (Lexeme.first multiline next more).extra := by
            rw [← List.drop_drop, hahead]
            rfl
          rw [hmore] at htokens
          rw [lexed_cons _ hsymbols, hahead, Lexeme.all_cons, behind, after_after]
          exact .cons hfirst htokens

end Site

namespace TokenStream

variable {left right : List Char}

/-- Rows of tokens that spell the same lexemes correspond. -/
theorem corresponds_of_spells {lexed others : List LexedToken} {placed : List (Nat × Lexeme)}
    (h : List.Forall₂ (LexedToken.Spells left) lexed placed)
    (h' : List.Forall₂ (LexedToken.Spells right) others placed) :
    List.Forall₂ (Token.Corresponds left right) (ofLexed lexed).tokens (ofLexed others).tokens ∧
      (ofLexed lexed).diagnostics.map Diagnostic.code =
        (ofLexed others).diagnostics.map Diagnostic.code := by
  unfold ofLexed
  simp only [List.map_filterMap]
  induction h generalizing others with
  | nil =>
      cases h'
      exact ⟨.nil, rfl⟩
  | cons hfirst _ ih =>
      rcases h' with _ | ⟨hother, hothers⟩
      obtain ⟨htokens, hcodes⟩ := ih hothers
      constructor
      · refine .cons ⟨?_, ?_, ?_, _, _, Nat.lt_add_of_pos_right (Nat.succ_pos _), hfirst.start,
          hfirst.stop, hother.start, hother.stop⟩ htokens
        · rw [hfirst.kind_eq, hother.kind_eq]
        · rw [hfirst.isPartial_eq, hother.isPartial_eq]
        · rw [hfirst.hasEscape_eq, hother.hasEscape_eq]
      · rw [List.filterMap_cons, List.filterMap_cons, hfirst.code_eq, hother.code_eq, hcodes]

theorem lexed_spells (multiline : Bool) (text : List Char) :
    List.Forall₂ (LexedToken.Spells text) ((Site.ofText text).lexed multiline)
      (Lexeme.placedFrom 0 (Lexeme.all multiline (Glyph.spelled text))) :=
  Site.lexed_spells (.nothing _)

/-- Texts that spell the same are lexed alike: no step of the reader is refused on either,
token by token they agree in kind and flags and cover the same stretch of what is spelled,
and the reports have the same codes in the same order. -/
theorem lex_respelled (multiline : Bool) (h : Reader.decoded left = Reader.decoded right) :
    PushBack.lex multiline left = .ok (lex multiline left) ∧
      PushBack.lex multiline right = .ok (lex multiline right) ∧
      List.Forall₂ (Token.Corresponds left right) (lex multiline left).tokens
        (lex multiline right).tokens ∧
      (lex multiline left).diagnostics.map Diagnostic.code =
        (lex multiline right).diagnostics.map Diagnostic.code := by
  have hspelled : Glyph.spelled left = Glyph.spelled right := by
    rw [Glyph.decoded_eq, Glyph.decoded_eq] at h
    exact Except.ok.inj h
  have hleft := lexed_spells multiline left
  have hright := lexed_spells multiline right
  rw [hspelled] at hleft
  exact ⟨PushBack.lex_eq multiline left, PushBack.lex_eq multiline right,
    corresponds_of_spells hleft hright⟩

def escapedWords : List Char :=
  ['\\', 'u', 'd', '8', '3', '5', '\\', 'u', 'u', 'D', 'C', '0', '0', ' ', '\\', 'u', '0', '0',
    '6', '9', 'f']

def plainWords : List Char :=
  ['𝐀', ' ', 'i', 'f']

theorem lex_respelled_words :
    Reader.decoded escapedWords = Reader.decoded plainWords ∧
      List.Forall₂ (Token.Corresponds escapedWords plainWords)
        (lex false escapedWords).tokens (lex false plainWords).tokens := by
  have hdecoded : Reader.decoded escapedWords = Reader.decoded plainWords := by
    decide +kernel
  exact ⟨hdecoded, (lex_respelled false hdecoded).2.2.1⟩

end TokenStream

end Manifest
