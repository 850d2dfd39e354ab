import Manifest.Proofs.Lexing.Keywords
import Manifest.Proofs.Lexing.Respelling
import Manifest.Proofs.Lexing.Tiling
import Mathlib.Data.List.TakeWhile

/-!
# The words of a text

Where a token begins with a character that begins an identifier, what follows decides it
in closed form: the identifier parts there spell a keyword, which is the token unless a
function is named like a resource or an assignment, or else the token is an identifier, the
longest row of parts and pairs of colons.
-/

namespace Manifest

namespace Symbol

variable {ahead rest name : List Symbol} {unit : Symbol} {c : Char} {kind : TokenKind}

/-! ## Identifiers -/

/-- The form of an identifier: its parts, and colons in pairs. -/
inductive IsName : List Symbol → Prop
  | nil : IsName []
  | part {unit : Symbol} {rest : List Symbol} (hunit : unit.isIdentifierPart = true)
      (h : IsName rest) : IsName (unit :: rest)
  | colons {rest : List Symbol} (h : IsName rest) : IsName (.char ':' :: .char ':' :: rest)

structure LongestName (ahead name : List Symbol) : Prop where
  begins : name <+: ahead
  isName : IsName name
  longest : ∀ other, other <+: ahead → IsName other → other.length ≤ name.length

theorem isIdentifierPart_colon : (Symbol.char ':').isIdentifierPart = false := by
  decide +kernel

theorem LongestName.part (hunit : unit.isIdentifierPart = true) (h : LongestName rest name) :
    LongestName (unit :: rest) (unit :: name) where
  begins := (List.prefix_cons_inj unit).2 h.begins
  isName := .part hunit h.isName
  longest := by
    intro other hother hname
    cases hname with
    | nil => exact Nat.zero_le _
    | part _ hmore =>
        obtain ⟨-, hbegins⟩ := List.cons_prefix_cons.1 hother
        exact Nat.succ_le_succ (h.longest _ hbegins hmore)
    | colons _ =>
        obtain ⟨rfl, -⟩ := List.cons_prefix_cons.1 hother
        rw [isIdentifierPart_colon] at hunit
        cases hunit

theorem LongestName.colons (h : LongestName rest name) :
    LongestName (.char ':' :: .char ':' :: rest) (.char ':' :: .char ':' :: name) where
  begins := (List.prefix_cons_inj _).2 ((List.prefix_cons_inj _).2 h.begins)
  isName := .colons h.isName
  longest := by
    intro other hother hname
    cases hname with
    | nil => exact Nat.zero_le _
    | part hunit _ =>
        obtain ⟨rfl, -⟩ := List.cons_prefix_cons.1 hother
        rw [isIdentifierPart_colon] at hunit
        cases hunit
    | colons hmore =>
        obtain ⟨-, hbegins⟩ := List.cons_prefix_cons.1 hother
        obtain ⟨-, hbegins⟩ := List.cons_prefix_cons.1 hbegins
        exact Nat.succ_le_succ (Nat.succ_le_succ (h.longest _ hbegins hmore))

theorem LongestName.nothing (hhead : ahead.head?.any isIdentifierPart = false)
    (hcolons : ∀ rest, ahead ≠ .char ':' :: .char ':' :: rest) : LongestName ahead [] where
  begins := List.nil_prefix
  isName := .nil
  longest := by
    rintro other ⟨behind, rfl⟩ hname
    cases hname with
    | nil => exact Nat.le_refl _
    | part hunit _ =>
        have hpart : _ = false := hhead
        rw [List.cons_append, List.head?_cons, Option.any_some, hunit] at hpart
        cases hpart
    | colons _ => exact (hcolons _ rfl).elim

/-- An identifier is the longest row of its form. -/
theorem longestName_identifierSize (h : Joined ahead) :
    LongestName ahead (ahead.take (identifierSize ahead)) := by
  induction hlength : ahead.length using Nat.strongRecOn generalizing ahead with
  | ind length ih =>
      by_cases hcolons : ∃ rest, ahead = .char ':' :: .char ':' :: rest
      · rcases hcolons with ⟨rest, rfl⟩
        rw [identifierSize_colons, Nat.add_comm, List.take_succ_cons, List.take_succ_cons]
        exact (ih rest.length (by simp only [List.length_cons] at hlength; omega) h.tail.tail
          rfl).colons
      · cases ahead with
        | nil => exact .nothing rfl (not_exists.1 hcolons)
        | cons unit rest =>
            have hgoes := h.goesOn_cons
            cases hpart : unit.isIdentifierPart with
            | true =>
                rw [hpart] at hgoes
                rw [identifierSize_goesOn hgoes, h.headUnit_cons, Nat.add_comm,
                  List.take_succ_cons]
                exact (ih rest.length (by simp only [List.length_cons] at hlength; omega) h.tail
                  rfl).part hpart
            | false =>
                rw [hpart] at hgoes
                rw [identifierSize_stop hgoes (not_exists.1 hcolons)]
                exact .nothing hpart (not_exists.1 hcolons)

/-! ## Words -/

def BraceOrEquals (symbols : List Symbol) : Prop :=
  symbols.find? (fun unit => !unit.isBlank) = some (.char '\x7b') ∨
    symbols.find? (fun unit => !unit.isBlank) = some (.char '=')

theorem opensBlockOrAssigns_iff (symbols : List Symbol) :
    opensBlockOrAssigns symbols = true ↔ BraceOrEquals symbols := by
  unfold BraceOrEquals opensBlockOrAssigns
  rw [List.find?_eq_head?_dropWhile_not]
  simp only [Bool.not_not]
  split
  · rename_i c rest heq
    rw [heq]
    simp
  · rename_i hnot
    refine iff_of_false Bool.false_ne_true ?_
    rintro (hbrace | hequals)
    · obtain ⟨rest, heq⟩ := List.head?_eq_some_iff.1 hbrace
      exact hnot _ rest heq
    · obtain ⟨rest, heq⟩ := List.head?_eq_some_iff.1 hequals
      exact hnot _ rest heq

/-- How the word at the head of a row is cut: `size` units of the kind `kind`. -/
structure CutsWord (ahead : List Symbol) (kind : TokenKind) (size : Nat) : Prop where
  /-- All identifier parts at the head spell a keyword. -/
  keyword : ∀ entry ∈ keywordEntries,
    ahead.takeWhile isIdentifierPart = entry.spelling.map .char →
      size = entry.spelling.length ∧
        (entry.functionLike = true ∧ BraceOrEquals (ahead.drop size) → kind = .identifier) ∧
        (¬ (entry.functionLike = true ∧ BraceOrEquals (ahead.drop size)) → kind = entry.kind)
  /-- They spell none. -/
  identifier :
    (∀ entry ∈ keywordEntries, ahead.takeWhile isIdentifierPart ≠ entry.spelling.map .char) →
      kind = .identifier ∧ size ≤ ahead.length ∧ LongestName ahead (ahead.take size)

theorem word_cuts (h : Joined (.char c :: rest)) (hstart : Manifest.isIdentifierStart c = true) :
    CutsWord (.char c :: rest) (Lexeme.word (.char c) rest).kind
      (Lexeme.word (.char c) rest).size := by
  unfold Lexeme.word
  cases hkeyword : keyword? keywordTrie (.char c :: rest) with
  | none =>
      have hgoes : goesOn (.char c :: rest) = true := isIdentifierPart_of_start hstart
      have hsize : (Lexeme.whole .identifier (identifierSize rest)).size =
          identifierSize (.char c :: rest) := by
        rw [identifierSize_goesOn hgoes, h.headUnit_cons, Nat.add_comm]
        rfl
      refine ⟨fun entry hentry htake => ?_, fun _ => ⟨rfl, ?_, ?_⟩⟩
      · rw [(keyword?_keywordTrie h).2 ⟨hentry, htake, rfl⟩] at hkeyword
        cases hkeyword
      · rw [hsize]
        exact (makes_identifier _).le.1
      · rw [hsize]
        exact longestName_identifierSize h
  | some found =>
      rcases found with ⟨found, size⟩
      obtain ⟨hfound, hspells, -⟩ := (keyword?_keywordTrie h).1 hkeyword
      have hpos := keyword?_pos hkeyword
      have hsize : ∀ kind, (Lexeme.whole kind (size - 1)).size = size :=
        fun kind => Nat.sub_add_cancel hpos
      refine ⟨fun entry hentry htake => ?_, fun hnone => (hnone found hfound hspells).elim⟩
      rw [(keyword?_keywordTrie h).2 ⟨hentry, htake, rfl⟩] at hkeyword
      obtain ⟨rfl, rfl⟩ := Prod.mk.inj (Option.some.inj hkeyword)
      have hname : (entry.functionLike && opensBlockOrAssigns
          ((.char c :: rest).drop entry.spelling.length)) = true ↔
            entry.functionLike = true ∧
              BraceOrEquals ((.char c :: rest).drop entry.spelling.length) := by
        rw [Bool.and_eq_true, opensBlockOrAssigns_iff]
      dsimp only
      split
      · rename_i hnamed
        rw [hsize, ← hname]
        exact ⟨rfl, fun _ => rfl, fun hnot => (hnot hnamed).elim⟩
      · rename_i hnamed
        rw [hsize, ← hname]
        exact ⟨rfl, fun h => (hnamed h).elim, fun _ => rfl⟩

end Symbol

namespace Lexeme

variable {multiline : Bool} {c : Char} {position start : Nat} {lexeme : Lexeme}
  {symbols : List Symbol}

theorem isIdentifierStart_digit (h : (Symbol.char c).isDigit = true) :
    isIdentifierStart c = false := by
  have hbeyond : ∀ range ∈ identifierStarts, 57 < range.1 := by decide +kernel
  simp only [Symbol.isDigit, Bool.and_eq_true, decide_eq_true_eq] at h
  have hnine : c.toNat ≤ 57 := h.2
  unfold isIdentifierStart
  generalize identifierStarts = ranges at hbeyond
  induction ranges with
  | nil => rfl
  | cons range ranges ih =>
      have hfirst := hbeyond range List.mem_cons_self
      unfold CodePoints.contains
      rw [if_pos (by omega)]

theorem isIdentifierStart_spelled {kinds : List TokenKind} {kind : TokenKind}
    (hplain : kinds.all (fun kind =>
      kind.spelling?.all (·.all fun c => !isIdentifierStart c)) = true)
    (h : kinds.find? (fun kind => kind.spelling? == some [c]) = some kind) :
    isIdentifierStart c = false := by
  have hfound := List.find?_some h
  have hspelling : kind.spelling? = some [c] := eq_of_beq hfound
  have hkind := List.all_eq_true.1 hplain kind (List.mem_of_find?_eq_some h)
  rw [hspelling] at hkind
  simpa using hkind

theorem ofChar_word (multiline : Bool) (h : isIdentifierStart c = true) (rest : List Symbol) :
    ofChar multiline c rest = word (.char c) rest := by
  have hnot : ∀ d, isIdentifierStart d = false → c ≠ d := by
    rintro d hd rfl
    rw [h] at hd
    cases hd
  have hdigit : ¬ (Symbol.char c).isDigit = true :=
    fun hdigit => hnot c (isIdentifierStart_digit hdigit) rfl
  have hquote : ¬ (c = '\'' ∨ c = '"') :=
    not_or.2 ⟨hnot '\'' (by decide +kernel), hnot '"' (by decide +kernel)⟩
  have hoperator : TokenKind.operator? [c] = none := by
    cases hkind : TokenKind.operator? [c] with
    | none => rfl
    | some kind => exact (hnot c (isIdentifierStart_spelled (by decide +kernel) hkind) rfl).elim
  have hseparator : TokenKind.separator? [c] = none := by
    cases hkind : TokenKind.separator? [c] with
    | none => rfl
    | some kind => exact (hnot c (isIdentifierStart_spelled (by decide +kernel) hkind) rfl).elim
  unfold ofChar
  rw [if_neg hdigit, if_neg (hnot '#' (by decide +kernel)), if_neg hquote,
    if_neg (hnot '$' (by decide +kernel)), if_neg (hnot '/' (by decide +kernel)), hoperator,
    hseparator]
  exact if_pos h

/-- A placed lexeme is the first one of what is left from its place on. -/
theorem first_of_mem_placedFrom
    (h : (position, lexeme) ∈ placedFrom start (all multiline symbols)) :
    ∃ count unit rest, position = start + count ∧ symbols.drop count = unit :: rest ∧
      lexeme = first multiline unit rest := by
  induction hlength : symbols.length using Nat.strongRecOn generalizing symbols start with
  | ind length ih =>
      cases symbols with
      | nil => cases h
      | cons unit rest =>
          rw [all_cons, placedFrom] at h
          rcases List.mem_cons.1 h with hfirst | hlater
          · obtain ⟨rfl, rfl⟩ := Prod.mk.inj hfirst
            exact ⟨0, unit, rest, rfl, rfl, rfl⟩
          · have hshorter : (rest.drop (first multiline unit rest).extra).length < length := by
              rw [List.length_cons] at hlength
              rw [List.length_drop]
              omega
            obtain ⟨count, other, more, hposition, hdrop, hlexeme⟩ := ih _ hshorter hlater rfl
            refine ⟨(first multiline unit rest).size + count, other, more, ?_, ?_, hlexeme⟩
            · omega
            · rw [← hdrop, List.drop_drop, size, Nat.add_right_comm, List.drop_succ_cons]

end Lexeme

namespace TokenStream

variable {source : List Char} {multiline : Bool} {token : Token}

/-- Where each token stands among the characters that the text spells. -/
theorem exists_first (h : token ∈ (lex multiline source).tokens) :
    ∃ position unit rest, (Glyph.spelled source).drop position = unit :: rest ∧
      token.kind = (Lexeme.first multiline unit rest).kind ∧
      Glyph.StandsAt source token.offset position ∧
      Glyph.StandsAt source token.stop
        (position + (Lexeme.first multiline unit rest).size) := by
  rw [lex_eq_lexed] at h
  obtain ⟨lexed, hlexed, rfl⟩ := List.mem_map.1 h
  obtain ⟨⟨position, lexeme⟩, hplaced, hspells⟩ : ∃ placed ∈ Lexeme.placedFrom 0
      (Lexeme.all multiline (Glyph.spelled source)), lexed.Spells source placed := by
    have hspells := lexed_spells multiline source
    obtain ⟨index, hindex, rfl⟩ := List.getElem_of_mem hlexed
    have hplaced := hspells.length_eq ▸ hindex
    exact ⟨_, List.getElem_mem hplaced, hspells.get hindex hplaced⟩
  obtain ⟨count, unit, rest, rfl, hdrop, rfl⟩ := Lexeme.first_of_mem_placedFrom hplaced
  rw [Nat.zero_add] at hspells
  exact ⟨count, unit, rest, hdrop, hspells.kind_eq, hspells.start, hspells.stop⟩

/-- No step of the lexer is refused, and each token that begins with a character which
begins an identifier is cut like a word: where all identifier parts there spell a keyword it
takes these and is of that kind, or an identifier if the keyword is the name of a function
and a brace or an equals sign follows; where they spell none it is an identifier, and the
longest one. -/
theorem lex_words (multiline : Bool) (source : List Char) :
    PushBack.lex multiline source = .ok (lex multiline source) ∧
      ∀ token ∈ (lex multiline source).tokens, ∃ position size,
        Glyph.StandsAt source token.offset position ∧
        Glyph.StandsAt source token.stop (position + size) ∧
        ∀ unit, ((Glyph.spelled source).drop position).head? = some unit →
          unit.isIdentifierStart = true →
          Symbol.CutsWord ((Glyph.spelled source).drop position) token.kind size := by
  refine ⟨PushBack.lex_eq multiline source, fun token htoken => ?_⟩
  obtain ⟨position, unit, rest, hdrop, hkind, hstart, hstop⟩ := exists_first htoken
  refine ⟨position, _, hstart, hstop, fun first hfirst hbegins => ?_⟩
  rw [hdrop] at hfirst ⊢
  obtain rfl := Option.some.inj hfirst
  rw [hkind]
  have hjoined : Symbol.Joined (unit :: rest) := by
    rw [← hdrop]
    exact (Symbol.joined_joinPairs _).drop position
  match unit, hbegins with
  | .char c, hbegins =>
      have hword : Lexeme.first multiline (.char c) rest = Lexeme.word (.char c) rest :=
        Lexeme.ofChar_word multiline hbegins rest
      rw [hword]
      exact Symbol.word_cuts hjoined hbegins

def writtenNames : List Char :=
  "include\\u0020\\u007b \\u0069fs::x: y".toList

theorem lex_words_writtenNames :
    ∃ token ∈ (lex false writtenNames).tokens, ∃ size,
      token.kind = .identifier ∧ Glyph.StandsAt writtenNames token.offset 10 ∧
        Glyph.StandsAt writtenNames token.stop (10 + size) ∧
        Symbol.CutsWord ((Glyph.spelled writtenNames).drop 10) .identifier size := by
  have hstands : Glyph.StandsAt writtenNames 20 10 :=
    ⟨(Glyph.decode writtenNames).take 10, (Glyph.decode writtenNames).drop 10,
      by decide +kernel, by decide +kernel, by decide +kernel, by decide +kernel,
      by decide +kernel⟩
  have htoken : ∃ token ∈ (lex false writtenNames).tokens,
      token.kind = .identifier ∧ token.offset = 20 := by
    decide +kernel
  obtain ⟨token, hmem, hkind, hoffset⟩ := htoken
  obtain ⟨position, size, hstart, hstop, hcuts⟩ := (lex_words false writtenNames).2 token hmem
  rw [← hoffset] at hstands
  obtain rfl := hstart.unique hstands
  rw [← hkind]
  exact ⟨token, hmem, size, rfl, hstart, hstop,
    hcuts (.char 'i') (by decide +kernel) (by decide +kernel)⟩

end TokenStream

end Manifest
