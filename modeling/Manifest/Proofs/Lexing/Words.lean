import Manifest.Proofs.Lexing.Literals

/-!
# Words and operators by push-back

The scanners of words look one unit ahead of a mark, and the unit may be a character
whose halves are escaped.  What they return to is where the lexical grammar on
symbols ends the word.
-/

namespace Manifest

/-! ## Characters that come in halves -/

namespace Symbol

theorem toNat_joined (high low : Fin 0x400) :
    (joined high low).toNat = 0x10000 + high * 0x400 + low := by
  have hhigh := high.isLt
  have hlow := low.isLt
  have hvalid : (0x10000 + high * 0x400 + low : Nat).isValidChar := Or.inr ⟨by omega, by omega⟩
  unfold joined Char.ofNat
  rw [dif_pos hvalid]
  rfl

theorem joined_ne (high low : Fin 0x400) {c : Char} (h : c.toNat < 0x10000) :
    joined high low ≠ c := by
  intro hjoined
  have htoNat := toNat_joined high low
  rw [hjoined] at htoNat
  omega

theorem isBlank_joined (high low : Fin 0x400) : Manifest.isBlank (joined high low) = false := by
  have htoNat := toNat_joined high low
  have hspaces : ∀ range ∈ spaceCharacters, range.2 < 0x10000 := by decide
  have hproper : CodePoints.Ascending spaceCharacters := by
    unfold CodePoints.Ascending
    decide
  have hnone : spaceCharacters.contains (joined high low).toNat = false := by
    rw [← Bool.not_eq_true, CodePoints.contains_iff hproper]
    rintro ⟨range, hrange, -, hle⟩
    have := hspaces range hrange
    omega
  unfold Manifest.isBlank
  rw [hnone]
  rfl

/-- The unit at the head, its halves put together, and how many symbols it takes. -/
def headUnit : List Symbol → Option Symbol × Nat
  | .high bits :: .low lowBits :: _ => (some (.char (joined bits lowBits)), 2)
  | unit :: _ => (some unit, 1)
  | [] => (none, 1)

theorem headUnit_pos (ahead : List Symbol) : 0 < (headUnit ahead).2 := by
  unfold headUnit
  split <;> simp

theorem isPart_headUnit (ahead : List Symbol) :
    PushBack.isPart (headUnit ahead).1 = goesOn ahead := by
  match ahead with
  | [] => rfl
  | .char c :: rest => rfl
  | .low bits :: rest => rfl
  | [.high bits] => rfl
  | .high bits :: .low lowBits :: rest => rfl
  | .high bits :: .char c :: rest => rfl
  | .high bits :: .high other :: rest => rfl

theorem headUnit_le {ahead : List Symbol} (h : goesOn ahead = true) :
    (headUnit ahead).2 ≤ ahead.length := by
  unfold headUnit
  split
  · simp
  · simp
  · cases h

theorem identifierSize_goesOn {ahead : List Symbol} (h : goesOn ahead = true) :
    identifierSize ahead =
      (headUnit ahead).2 + identifierSize (ahead.drop (headUnit ahead).2) := by
  match ahead with
  | [] => cases h
  | .low bits :: rest => cases h
  | [.high bits] => cases h
  | .high bits :: .char c :: rest => cases h
  | .high bits :: .high other :: rest => cases h
  | .high bits :: .low lowBits :: rest =>
      have hpart : Manifest.isIdentifierPart (joined bits lowBits) = true := h
      rw [identifierSize, if_pos hpart]
      rfl
  | .char c :: rest =>
      have hpart : Manifest.isIdentifierPart c = true := h
      have hcolon : ∀ rest', rest = .char ':' :: rest' → c = ':' → False := by
        rintro rest' - rfl
        revert hpart
        decide +kernel
      rw [identifierSize, if_pos hpart]
      · rfl
      · exact hcolon

theorem identifierSize_colons (rest : List Symbol) :
    identifierSize (.char ':' :: .char ':' :: rest) = 2 + identifierSize rest := by
  rw [identifierSize]

theorem identifierSize_stop {ahead : List Symbol} (h : goesOn ahead = false)
    (hcolons : ∀ rest, ahead ≠ .char ':' :: .char ':' :: rest) : identifierSize ahead = 0 := by
  match ahead with
  | [] => rfl
  | .low bits :: rest => rfl
  | [.high bits] => rfl
  | .high bits :: .char c :: rest => rfl
  | .high bits :: .high other :: rest => rfl
  | .high bits :: .low lowBits :: rest =>
      have hpart : Manifest.isIdentifierPart (joined bits lowBits) = false := h
      rw [identifierSize, hpart]
      rfl
  | .char c :: rest =>
      have hpart : Manifest.isIdentifierPart c = false := h
      rw [identifierSize, hpart]
      · rfl
      · rintro rest' rfl rfl
        exact hcolons rest' rfl

theorem variableSize_colon (colons : Nat) (rest : List Symbol) :
    variableSize colons (.char ':' :: rest) = variableSize (colons + 1) rest := by
  rw [variableSize, if_pos rfl]

theorem variableSize_goesOn {ahead : List Symbol} (h : goesOn ahead = true) (colons : Nat) :
    variableSize colons ahead =
      colons + (headUnit ahead).2 + variableSize 0 (ahead.drop (headUnit ahead).2) := by
  match ahead with
  | [] => cases h
  | .low bits :: rest => cases h
  | [.high bits] => cases h
  | .high bits :: .char c :: rest => cases h
  | .high bits :: .high other :: rest => cases h
  | .high bits :: .low lowBits :: rest =>
      have hpart : Manifest.isIdentifierPart (joined bits lowBits) = true := h
      rw [variableSize, if_pos hpart]
      rfl
  | .char c :: rest =>
      have hpart : Manifest.isIdentifierPart c = true := h
      have hcolon : c ≠ ':' := by
        rintro rfl
        revert hpart
        decide +kernel
      rw [variableSize, if_neg hcolon, if_pos hpart]
      rfl

theorem variableSize_stop {ahead : List Symbol} (h : goesOn ahead = false)
    (hcolon : ∀ rest, ahead ≠ .char ':' :: rest) (colons : Nat) :
    variableSize colons ahead = 0 := by
  match ahead with
  | [] => rfl
  | .low bits :: rest => rfl
  | [.high bits] => rfl
  | .high bits :: .char c :: rest => rfl
  | .high bits :: .high other :: rest => rfl
  | .high bits :: .low lowBits :: rest =>
      have hpart : Manifest.isIdentifierPart (joined bits lowBits) = false := h
      rw [variableSize, hpart]
      rfl
  | .char c :: rest =>
      have hpart : Manifest.isIdentifierPart c = false := h
      have hother : c ≠ ':' := fun hc => hcolon rest (by rw [hc])
      rw [variableSize, if_neg hother, hpart]
      rfl

end Symbol

namespace PushBack

open Manifest.Symbol (headUnit goesOn identifierSize variableSize opensBlockOrAssigns)

variable {site : Site} {reader : Reader} {ahead : List Symbol} {extra mark steps : Nat}
  {unit? : Option Symbol}

/-- A unit was read at a mark, its second half perhaps with it. -/
def Peeked (site : Site) (mark : Nat) (ahead : List Symbol) (unit? : Option Symbol)
    (reader : Reader) : Prop :=
  (unit? = ahead.head? ∧ reader.At site (mark + 1) ahead.tail) ∨
    ∃ bits lowBits rest, ahead = .high bits :: .low lowBits :: rest ∧
      unit? = some (.char (Symbol.joined bits lowBits)) ∧ reader.At site (mark + 2) rest

/-- Joining halves goes behind the unit at the mark, and is never refused a step. -/
theorem joinHalves_peeked (h : Peeked site mark ahead unit? reader) :
    ∃ after, joinHalves unit? reader = .ok ((headUnit ahead).1, after) ∧
      after.At site (mark + (headUnit ahead).2) (ahead.drop (headUnit ahead).2) ∧
      Peeked site mark ahead (headUnit ahead).1 after := by
  rcases h with ⟨rfl, hat⟩ | ⟨bits, lowBits, rest, rfl, rfl, hat⟩
  · match ahead, hat with
    | [], hat => exact ⟨reader, rfl, hat, .inl ⟨rfl, hat⟩⟩
    | .char c :: rest, hat => exact ⟨reader, rfl, hat, .inl ⟨rfl, hat⟩⟩
    | .low bits :: rest, hat => exact ⟨reader, rfl, hat, .inl ⟨rfl, hat⟩⟩
    | .high bits :: rest, hat =>
        have hat : reader.At site (mark + 1) rest := hat
        obtain ⟨after, hread, hafter, before, hunread, hbefore⟩ := hat.read
        unfold joinHalves
        simp only [List.head?_cons, hread, except_ok_bind]
        match rest, hafter, hbefore with
        | [], _, hbefore =>
            simp only [List.head?_nil, hunread, except_ok_bind]
            exact ⟨before, rfl, hbefore, .inl ⟨rfl, hbefore⟩⟩
        | .char c :: rest, _, hbefore =>
            simp only [List.head?_cons, hunread, except_ok_bind]
            exact ⟨before, rfl, hbefore, .inl ⟨rfl, hbefore⟩⟩
        | .high other :: rest, _, hbefore =>
            simp only [List.head?_cons, hunread, except_ok_bind]
            exact ⟨before, rfl, hbefore, .inl ⟨rfl, hbefore⟩⟩
        | .low lowBits :: rest, hafter, _ =>
            exact ⟨after, rfl, hafter, .inr ⟨bits, lowBits, rest, rfl, rfl, hafter⟩⟩
  · exact ⟨reader, rfl, hat, .inr ⟨bits, lowBits, rest, rfl, rfl, hat⟩⟩

/-- The unit at the head is a character of the basic plane only if it is spelled alone. -/
theorem headUnit_eq_char {c : Char} (hc : c.toNat < 0x10000)
    (h : (headUnit ahead).1 = some (.char c)) :
    (headUnit ahead).2 = 1 ∧ ∃ rest, ahead = .char c :: rest := by
  unfold headUnit at h ⊢
  split at h
  · simp only [Option.some.injEq, Symbol.char.injEq] at h
    exact (Symbol.joined_ne _ _ hc h).elim
  · rename_i unit rest hpair
    obtain rfl : unit = .char c := Option.some.inj h
    exact ⟨rfl, rest, rfl⟩
  · cases h

theorem returnTo_gives {kind : TokenKind} {count taken : Nat} (h : reader.At site count ahead)
    (hle : taken ≤ count) (hlength : taken ≤ site.glyphs.length) (hextra : extra + 1 = taken)
    (hkind : kind ≠ .whitespace) (herror : kind ≠ .error) :
    ∃ after, reader.returnTo (Glyph.reach site.glyphs taken) = .ok after ∧
      Gives site (closeWhole kind after) (.whole kind extra) := by
  obtain ⟨after, hreturn, hafter⟩ := h.returnTo hle
  refine ⟨after, hreturn, ?_⟩
  subst hextra
  exact closeWhole_gives (hafter.took hlength) (sharedSpelling?_of_ne hkind _) herror

theorem returnTo_identifier {count : Nat} (h : reader.At site count ahead) (hle : mark ≤ count)
    (hlength : mark ≤ site.glyphs.length) (hextra : extra + 1 = mark) :
    ∃ after, reader.returnTo (Glyph.reach site.glyphs mark) = .ok after ∧
      Gives site (closeWhole .identifier after) (.whole .identifier extra) :=
  returnTo_gives h hle hlength hextra (by decide) (by decide)

theorem identifier_gives (h : Peeked site mark ahead unit? reader) (hsteps : ahead.length < steps)
    (hmark : mark + ahead.length ≤ site.glyphs.length)
    (hextra : extra + 1 = mark + identifierSize ahead) :
    Gives site (identifier steps unit? (Glyph.reach site.glyphs mark) reader)
      (.whole .identifier extra) := by
  induction steps generalizing mark ahead unit? reader with
  | zero => omega
  | succ steps ih =>
      obtain ⟨after, hjoin, hafter, -⟩ := joinHalves_peeked h
      have hpos := Symbol.headUnit_pos ahead
      unfold identifier
      simp only [hjoin, except_ok_bind, Symbol.isPart_headUnit]
      cases hgoes : goesOn ahead with
      | true =>
          obtain ⟨last, hread, hlast, -⟩ := hafter.read
          have hwide := Symbol.headUnit_le hgoes
          have hdrop : (ahead.drop (headUnit ahead).2).length =
              ahead.length - (headUnit ahead).2 := List.length_drop
          have hsize := Symbol.identifierSize_goesOn hgoes
          simp only [if_true, hread, except_ok_bind, hafter.mark_eq]
          exact ih (.inl ⟨rfl, hlast⟩) (by omega) (by omega) (by omega)
      | false =>
          rw [if_neg Bool.false_ne_true]
          by_cases hcolon : (headUnit ahead).1 = some (.char ':')
          · obtain ⟨hone, rest, rfl⟩ := headUnit_eq_char (by decide) hcolon
            rw [hone, List.drop_succ_cons, List.drop_zero] at hafter
            obtain ⟨second, hsecond, hbehind, -⟩ := hafter.read
            simp only [hcolon, if_true, hsecond, except_ok_bind]
            by_cases hpair : rest.head? = some (.char ':')
            · obtain ⟨rest, rfl⟩ := List.head?_eq_some_iff.1 hpair
              rw [List.tail_cons] at hbehind
              obtain ⟨last, hread, hlast, -⟩ := hbehind.read
              rw [Symbol.identifierSize_colons] at hextra
              simp only [List.length_cons] at hsteps hmark
              simp only [List.head?_cons, if_true, hread, except_ok_bind, hbehind.mark_eq,
                Nat.add_assoc, Nat.reduceAdd]
              exact ih (.inl ⟨rfl, hlast⟩) (by omega) (by omega) (by omega)
            · have hstop : identifierSize (.char ':' :: rest) = 0 := by
                refine Symbol.identifierSize_stop hgoes fun rest' h => hpair ?_
                rw [(List.cons.inj h).2]
                rfl
              have hend : extra + 1 = mark := by omega
              obtain ⟨last, hreturn, hgives⟩ :=
                returnTo_identifier hbehind (by omega) (by omega) hend
              rw [if_neg hpair, hreturn]
              exact hgives
          · have hstop : identifierSize ahead = 0 := by
              refine Symbol.identifierSize_stop hgoes fun rest h => hcolon ?_
              rw [h]
              rfl
            have hend : extra + 1 = mark := by omega
            obtain ⟨last, hreturn, hgives⟩ :=
              returnTo_identifier hafter (by omega) (by omega) hend
            rw [if_neg hcolon, hreturn]
            exact hgives

/-! ## Operators -/

theorem proper_of_spelling? {kind : TokenKind} {spelling : List Char}
    (h : kind.spelling? = some spelling) : kind ≠ .whitespace ∧ kind ≠ .error := by
  constructor
  · rintro rfl
    cases h
  · rintro rfl
    cases h

theorem spelling?_of_operator? {spelling : List Char} {kind : TokenKind}
    (h : TokenKind.operator? spelling = some kind) : kind.spelling? = some spelling := by
  have hfound := List.find?_some h
  exact eq_of_beq hfound

theorem operatorFrom_none {spelling : List Char} {kind : TokenKind}
    (h : longer? spelling ahead.head? = none) :
    Lexeme.operatorFrom spelling kind ahead = .whole kind 0 := by
  match ahead, h with
  | [], _ => rfl
  | .high bits :: rest, _ => rfl
  | .low bits :: rest, _ => rfl
  | .char c :: rest, h =>
      have hnone : TokenKind.operator? (spelling ++ [c]) = none := by
        cases hfound : TokenKind.operator? (spelling ++ [c]) with
        | none => rfl
        | some longer => simp [longer?, hfound] at h
      rw [Lexeme.operatorFrom, hnone]

theorem operatorFrom_some {spelling longer : List Char} {kind : TokenKind}
    (h : longer? spelling ahead.head? = some longer) :
    ∃ next unit rest, ahead = unit :: rest ∧ TokenKind.operator? longer = some next ∧
      Lexeme.operatorFrom spelling kind ahead =
        { Lexeme.operatorFrom longer next rest with
          extra := (Lexeme.operatorFrom longer next rest).extra + 1 } := by
  match ahead, h with
  | .char c :: rest, h =>
      cases hfound : TokenKind.operator? (spelling ++ [c]) with
      | none => simp [longer?, hfound] at h
      | some next =>
          obtain rfl : spelling ++ [c] = longer := by simpa [longer?, hfound] using h
          exact ⟨next, _, rest, rfl, hfound, by rw [Lexeme.operatorFrom, hfound]⟩

theorem operator_gives {spelling : List Char} {kind : TokenKind}
    (h : reader.Took site (extra + 1) ahead) (hsteps : ahead.length < steps)
    (hkind : TokenKind.operator? spelling = some kind) :
    Gives site (operator steps spelling reader)
      { Lexeme.operatorFrom spelling kind ahead with
        extra := extra + (Lexeme.operatorFrom spelling kind ahead).extra } := by
  induction steps generalizing extra ahead reader spelling kind with
  | zero => omega
  | succ steps ih =>
      obtain ⟨after, hread, hafter, before, hunread, hbefore⟩ := h.read
      unfold operator
      simp only [hread, except_ok_bind]
      cases hlonger : longer? spelling ahead.head? with
      | none =>
          obtain ⟨hspace, herror⟩ := proper_of_spelling? (spelling?_of_operator? hkind)
          simp only [hunread, except_ok_bind, hkind, operatorFrom_none hlonger]
          exact closeWhole_gives hbefore (sharedSpelling?_of_ne hspace _) herror
      | some longer =>
          obtain ⟨next, unit, rest, rfl, hnext, hfrom⟩ := operatorFrom_some hlonger
          rw [List.length_cons] at hsteps
          have hrest := ih (hafter unit rest rfl) (by omega) hnext
          rw [hfrom]
          simpa only [Nat.add_assoc, Nat.add_comm 1] using hrest

/-! ## Slashes and spaces -/

theorem marked_false (ending : LiteralEnd) : marked false ending = ending :=
  rfl

theorem slash_star (rest : List Symbol) :
    Lexeme.slash (.char '*' :: rest) =
      .literal .blockComment 1 (Symbol.blockCommentEnd rest) :=
  rfl

theorem slash_regexp (h : ahead.head? ≠ some (.char '*')) :
    Lexeme.slash ahead = .literal .regexp 0 (Symbol.regexpEnd ahead) := by
  unfold Lexeme.slash
  split
  · exact (h rfl).elim
  · rfl

theorem slash_gives (h : reader.Took site 1 ahead) :
    Gives site (slash reader) (Lexeme.slash ahead) := by
  obtain ⟨after, hread, hafter, before, hunread, hbefore⟩ := h.read
  unfold slash
  simp only [hread, except_ok_bind]
  by_cases hstar : ahead.head? = some (.char '*')
  · obtain ⟨rest, rfl⟩ := List.head?_eq_some_iff.1 hstar
    have hcomment := hafter _ _ rfl
    have hsteps := hcomment.length_ahead_le
    rw [if_pos hstar, slash_star, ← marked_false (Symbol.blockCommentEnd rest)]
    exact blockComment_gives hcomment (Nat.lt_succ_of_le hsteps)
  · have hsteps := hbefore.length_ahead_le
    rw [if_neg hstar, hunread, slash_regexp hstar, ← marked_false (Symbol.regexpEnd ahead)]
    exact regexp_gives hbefore (Nat.lt_succ_of_le hsteps) fun h => Bool.noConfusion h

theorem sharedSpelling?_whitespace {glyphs : List Glyph}
    (h : Glyph.symbols glyphs ≠ [.char ' ']) :
    Token.sharedSpelling? .whitespace glyphs = TokenKind.whitespace.spelling? := by
  have hnone : TokenKind.whitespace.spelling? = none := rfl
  unfold Token.sharedSpelling?
  rw [hnone]
  simp [h]

theorem symbols_take (count : Nat) :
    Glyph.symbols (site.glyphs.take count) = site.symbols.take count := by
  unfold Glyph.symbols Site.symbols
  exact List.map_take

/-- Blanks that are not a single space share no spelling. -/
theorem blanks_gives {unit : Symbol} {rest : List Symbol} (h : reader.Took site 1 rest)
    (hsymbols : site.symbols = unit :: rest)
    (hother : unit = .char ' ' → Lexeme.runSize Symbol.isBlank rest ≠ 0) :
    Gives site (run Symbol.isBlank .whitespace (bound reader) reader)
      (.whole .whitespace (Lexeme.runSize Symbol.isBlank rest)) := by
  have hsteps := h.length_ahead_le
  have hrun : Lexeme.runSize Symbol.isBlank rest ≤ rest.length :=
    (List.takeWhile_sublist _).length_le
  have hshared : Token.sharedSpelling? .whitespace
      (site.glyphs.take (0 + Lexeme.runSize Symbol.isBlank rest + 1)) =
        TokenKind.whitespace.spelling? := by
    refine sharedSpelling?_whitespace ?_
    rw [symbols_take, hsymbols, List.take_succ_cons]
    intro hsingle
    obtain ⟨hunit, hnil⟩ := List.cons.inj hsingle
    have hlength := congrArg List.length hnil
    rw [List.length_take, List.length_nil] at hlength
    have := hother hunit
    omega
  have hfirst : reader.Took site (0 + 1) rest := h
  have hgives := run_gives hfirst (Nat.lt_succ_of_le hsteps) (by decide) hshared
  rwa [Nat.zero_add] at hgives

theorem space_gives (h : reader.Took site 1 ahead) (hsymbols : site.symbols = .char ' ' :: ahead) :
    Gives site (space reader) (.whole .whitespace (Lexeme.runSize Symbol.isBlank ahead)) := by
  obtain ⟨after, hread, -, before, hunread, hbefore⟩ := h.read
  unfold space
  simp only [hread, hunread, except_ok_bind]
  by_cases hblank : ahead.head?.any Symbol.isBlank = true
  · rw [if_pos hblank]
    apply blanks_gives hbefore hsymbols
    intro _
    cases ahead with
    | nil => cases hblank
    | cons unit rest =>
        have hunit : unit.isBlank = true := hblank
        simp [Lexeme.runSize, hunit]
  · have hsize : Lexeme.runSize Symbol.isBlank ahead = 0 := by
      cases ahead with
      | nil => rfl
      | cons unit rest =>
          have hunit : unit.isBlank = false := by simpa using hblank
          simp [Lexeme.runSize, hunit]
    have hshared : Token.sharedSpelling? .whitespace (site.glyphs.take 1) =
        some singleSpace := by
      unfold Token.sharedSpelling?
      rw [symbols_take, hsymbols]
      rfl
    have hsingle : before.Took site (Lexeme.whole .whitespace 0).size ahead := hbefore
    rw [if_neg hblank, hsize]
    exact close_gives hsingle hshared.symm rfl

/-! ## Variables -/

/-- The name ends at `base`, and `colons` colons were read since: where they began is
remembered, once there is one. -/
def ColonsSince (site : Site) (base colons : Nat) (colons? : Option Nat) : Prop :=
  (colons? = none ∧ colons = 0) ∨ colons? = some (Glyph.reach site.glyphs base)

theorem dollarName_gives {base colons : Nat} {colons? : Option Nat}
    (h : reader.At site (base + colons) ahead) (hsteps : ahead.length < steps)
    (hlength : base + colons + ahead.length ≤ site.glyphs.length)
    (hcolons : ColonsSince site base colons colons?) (hextra : extra + 1 = base) :
    Gives site (dollarName steps colons? reader)
      (.whole .variable (extra + variableSize colons ahead)) := by
  induction steps generalizing base colons colons? extra ahead reader with
  | zero => omega
  | succ steps ih =>
      obtain ⟨first, hread, hfirst, -⟩ := h.read
      have hpeeked : Peeked site (base + colons) ahead ahead.head? first := .inl ⟨rfl, hfirst⟩
      obtain ⟨after, hjoin, hafter, -⟩ := joinHalves_peeked hpeeked
      have hmark : colons?.getD (Glyph.reach site.glyphs (base + colons)) =
          Glyph.reach site.glyphs base := by
        rcases hcolons with ⟨rfl, rfl⟩ | rfl <;> rfl
      have hsome : colons?.or (some (Glyph.reach site.glyphs (base + colons))) =
          some (Glyph.reach site.glyphs base) := by
        rcases hcolons with ⟨rfl, rfl⟩ | rfl <;> rfl
      unfold dollarName
      simp only [hread, hjoin, except_ok_bind, h.mark_eq, hsome, hmark, Symbol.isPart_headUnit]
      by_cases hcolon : (headUnit ahead).1 = some (.char ':')
      · obtain ⟨hone, rest, rfl⟩ := headUnit_eq_char (by decide) hcolon
        rw [hone, List.drop_succ_cons, List.drop_zero] at hafter
        rw [List.length_cons] at hsteps hlength
        rw [if_pos hcolon, Symbol.variableSize_colon]
        exact ih hafter (by omega) (by omega) (.inr rfl) hextra
      · rw [if_neg hcolon]
        cases hgoes : goesOn ahead with
        | true =>
            have hwide := Symbol.headUnit_le hgoes
            have hpos := Symbol.headUnit_pos ahead
            have hdrop : (ahead.drop (headUnit ahead).2).length =
                ahead.length - (headUnit ahead).2 := List.length_drop
            have hsize : extra + variableSize colons ahead =
                extra + colons + (headUnit ahead).2 +
                  variableSize 0 (ahead.drop (headUnit ahead).2) := by
              rw [Symbol.variableSize_goesOn hgoes]
              omega
            have hnext : after.At site (base + colons + (headUnit ahead).2 + 0)
                (ahead.drop (headUnit ahead).2) := hafter
            rw [if_pos rfl, hsize]
            exact ih hnext (by omega) (by omega) (.inl ⟨rfl, rfl⟩) (by omega)
        | false =>
            have hstop : variableSize colons ahead = 0 := by
              refine Symbol.variableSize_stop hgoes (fun rest hrest => hcolon ?_) colons
              rw [hrest]
              rfl
            have hback : base ≤ base + colons + (headUnit ahead).2 := by omega
            obtain ⟨last, hreturn, hgives⟩ :=
              returnTo_gives hafter hback (by omega) hextra
                (show TokenKind.variable ≠ .whitespace by decide) (by decide)
            rw [if_neg Bool.false_ne_true, hreturn, hstop]
            exact hgives

/-! ## Keywords -/

theorem Peeked.at (h : Peeked site mark ahead unit? reader) :
    ∃ count rest, mark ≤ count ∧ reader.At site count rest := by
  rcases h with ⟨-, hat⟩ | ⟨bits, lowBits, rest, -, -, hat⟩
  · exact ⟨mark + 1, ahead.tail, by omega, hat⟩
  · exact ⟨mark + 2, rest, by omega, hat⟩

theorem pastBlanks_peeked (h : Peeked site mark ahead unit? reader)
    (hsteps : ahead.length < steps) :
    ∃ last after count rest, pastBlanks steps unit? reader = .ok (last, after) ∧
      mark ≤ count ∧ after.At site count rest ∧
      ((last = some (.char '\x7b') ∨ last = some (.char '=')) ↔
        opensBlockOrAssigns ahead = true) := by
  induction steps generalizing mark ahead unit? reader with
  | zero => omega
  | succ steps ih =>
      unfold pastBlanks
      rcases h with ⟨rfl, hat⟩ | ⟨bits, lowBits, rest, rfl, rfl, hat⟩
      · match ahead, hat, hsteps with
        | [], hat, _ =>
            exact ⟨none, reader, mark + 1, [], rfl, Nat.le_succ mark, hat, by
              simp [opensBlockOrAssigns]⟩
        | unit :: rest, hat, hsteps =>
            cases hblank : unit.isBlank with
            | true =>
                obtain ⟨next, hread, hnext, -⟩ := hat.read
                obtain ⟨last, after, count, behind, hpast, hle, hafter, hopens⟩ :=
                  ih (.inl ⟨rfl, hnext⟩) (by simpa using hsteps)
                refine ⟨last, after, count, behind, ?_, by omega, hafter, ?_⟩
                · simp only [List.head?_cons, Option.any_some, hblank, if_true, hread,
                    except_ok_bind]
                  exact hpast
                · rw [hopens]
                  simp [opensBlockOrAssigns, hblank]
            | false =>
                refine ⟨some unit, reader, mark + 1, rest, ?_, Nat.le_succ mark, hat, ?_⟩
                · simp only [List.head?_cons, Option.any_some, hblank, Bool.false_eq_true,
                    if_false]
                  rfl
                · unfold opensBlockOrAssigns
                  rw [List.dropWhile_cons_of_neg (by simp [hblank])]
                  cases unit <;> simp
      · have hblank : (Symbol.char (Symbol.joined bits lowBits)).isBlank = false :=
          Symbol.isBlank_joined bits lowBits
        refine ⟨some (.char (Symbol.joined bits lowBits)), reader, mark + 2, rest, ?_,
          Nat.le_add_right mark 2, hat, ?_⟩
        · simp only [Option.any_some, hblank, Bool.false_eq_true, if_false]
          rfl
        · have hbrace : Symbol.joined bits lowBits ≠ '\x7b' := Symbol.joined_ne _ _ (by decide)
          have hequals : Symbol.joined bits lowBits ≠ '=' := Symbol.joined_ne _ _ (by decide)
          simp [opensBlockOrAssigns, Symbol.isBlank, hbrace, hequals]

/-- A keyword ends where its spelling does, and is a name where a block or value follows. -/
theorem keyword_gives {entry : KeywordEntry} (h : Peeked site mark ahead unit? reader)
    (hlength : mark + ahead.length ≤ site.glyphs.length) (hextra : extra + 1 = mark)
    (hkind : entry.kind ≠ .whitespace) (herror : entry.kind ≠ .error) :
    Gives site (keyword entry unit? (Glyph.reach site.glyphs mark) reader)
      (if entry.functionLike && opensBlockOrAssigns ahead then .whole .identifier extra
        else .whole entry.kind extra) := by
  unfold keyword
  cases hfunction : entry.functionLike with
  | false =>
      obtain ⟨count, rest, hle, hat⟩ := h.at
      obtain ⟨after, hreturn, hgives⟩ :=
        returnTo_gives hat hle (by omega) hextra hkind herror
      simp only [Bool.false_eq_true, if_false, Bool.false_and, hreturn, except_ok_bind]
      exact hgives
  | true =>
      obtain ⟨_, _, _, hat⟩ := h.at
      have hbound := hat.length_glyphs_le
      obtain ⟨last, after, count, rest, hpast, hle, hafter, hopens⟩ :=
        pastBlanks_peeked h (show ahead.length < bound reader + 1 by unfold bound; omega)
      simp only [if_true, Bool.true_and, hpast, except_ok_bind]
      by_cases hname : opensBlockOrAssigns ahead = true
      · obtain ⟨back, hreturn, hgives⟩ := returnTo_identifier hafter hle (by omega) hextra
        rw [if_pos (hopens.2 hname), if_pos hname, hreturn]
        exact hgives
      · obtain ⟨back, hreturn, hgives⟩ :=
          returnTo_gives hafter hle (by omega) hextra hkind herror
        rw [if_neg (mt hopens.1 hname), if_neg hname, hreturn]
        exact hgives

/-! ## Words -/

/-- Each key below a node goes on an identifier, and each entry is spelled by the keys that
lead to it; `path` are those that lead to the node. -/
def Spelled : List Char → KeywordBranches → Bool
  | _, .nil => true
  | path, .cons key entry below others =>
      isIdentifierPart key &&
        entry.all (fun entry => entry.kind.spelling? == some (path ++ [key])) &&
        Spelled (path ++ [key]) below && Spelled path others

theorem spelled_keywordTrie : Spelled [] keywordTrie.branches = true := by
  decide +kernel

def SpelledNode (path : List Char) (node : KeywordTrie) : Prop :=
  Spelled path node.branches = true ∧
    ∀ entry, node.entry = some entry → entry.kind.spelling? = some path

theorem spelled_find? {branches : KeywordBranches} {path : List Char} {c : Char}
    {node : KeywordTrie} (h : Spelled path branches = true)
    (hfind : branches.find? c = some node) :
    isIdentifierPart c = true ∧ SpelledNode (path ++ [c]) node := by
  induction branches with
  | nil => cases hfind
  | cons key entry below others _ ih =>
      simp only [Spelled, Bool.and_eq_true] at h
      rcases h with ⟨⟨⟨hkey, hentry⟩, hbelow⟩, hothers⟩
      unfold KeywordBranches.find? at hfind
      split at hfind
      · rename_i hc
        subst hc
        obtain rfl : ⟨entry, below⟩ = node := Option.some.inj hfind
        refine ⟨hkey, hbelow, fun found hfound => ?_⟩
        obtain rfl : entry = some found := hfound
        exact eq_of_beq hentry
      · exact ih hothers hfind

/-- The lexeme of a word that has reached a node, with `extra` units behind its first. -/
def wordAt (node : KeywordTrie) (extra : Nat) (ahead : List Symbol) : Lexeme :=
  match Symbol.keyword? node ahead with
  | some (entry, size) =>
      if entry.functionLike && opensBlockOrAssigns (ahead.drop size) then
        .whole .identifier (extra + size)
      else
        .whole entry.kind (extra + size)
  | none => .whole .identifier (extra + identifierSize ahead)

theorem keyword?_step {node next : KeywordTrie} {unit : Symbol} (rest : List Symbol)
    (h : stepBy? node (some unit) = some next) :
    Symbol.keyword? node (unit :: rest) =
      (Symbol.keyword? next rest).map fun (entry, size) => (entry, size + 1) := by
  match unit, h with
  | .char c, h =>
      have hstep : node.step c = some next := h
      rw [Symbol.keyword?]
      simp only [hstep]

theorem keyword?_stop {node : KeywordTrie} (h : stepBy? node ahead.head? = none) :
    Symbol.keyword? node ahead =
      if goesOn ahead then none else node.entry.map fun entry => (entry, 0) := by
  match ahead, h with
  | [], _ => rfl
  | .high bits :: rest, _ => rfl
  | .low bits :: rest, _ => rfl
  | .char c :: rest, h =>
      have hstep : node.step c = none := h
      rw [Symbol.keyword?]
      simp only [hstep]

theorem wordAt_step {node next : KeywordTrie} {path : List Char} {unit : Symbol}
    (rest : List Symbol) (h : stepBy? node (some unit) = some next)
    (hspelled : SpelledNode path node) :
    wordAt node extra (unit :: rest) = wordAt next (extra + 1) rest := by
  have hgoes : goesOn (unit :: rest) = true ∧ headUnit (unit :: rest) = (some unit, 1) := by
    match unit, h with
    | .char c, h => exact ⟨(spelled_find? hspelled.1 h).1, rfl⟩
  have hsize := Symbol.identifierSize_goesOn hgoes.1
  rw [hgoes.2, List.drop_succ_cons, List.drop_zero] at hsize
  unfold wordAt
  rw [keyword?_step rest h, hsize]
  cases Symbol.keyword? next rest with
  | none => simp only [Option.map_none, Nat.add_assoc]
  | some found =>
      simp only [Option.map_some, List.drop_succ_cons, Nat.add_assoc, Nat.add_comm 1]

/-- Past the word, or into an identifier: the trie leads no further. -/
theorem wordAt_stop {node : KeywordTrie} (h : stepBy? node ahead.head? = none) :
    wordAt node extra ahead =
      if goesOn ahead then .whole .identifier (extra + identifierSize ahead)
      else
        match node.entry with
        | some entry =>
            if entry.functionLike && opensBlockOrAssigns ahead then .whole .identifier extra
            else .whole entry.kind extra
        | none => .whole .identifier (extra + identifierSize ahead) := by
  unfold wordAt
  rw [keyword?_stop h]
  cases goesOn ahead with
  | true => rfl
  | false => cases node.entry <;> rfl

theorem wordFrom_gives {node : KeywordTrie} {path : List Char}
    (h : reader.At site (extra + 1) ahead) (hsteps : ahead.length < steps)
    (hlength : extra + 1 + ahead.length ≤ site.glyphs.length)
    (hspelled : SpelledNode path node) :
    Gives site (wordFrom steps node reader) (wordAt node extra ahead) := by
  induction steps generalizing extra ahead reader node path with
  | zero => omega
  | succ steps ih =>
      obtain ⟨first, hread, hfirst, -⟩ := h.read
      have hbound := hfirst.length_glyphs_le
      have hpeeked : Peeked site (extra + 1) ahead ahead.head? first := .inl ⟨rfl, hfirst⟩
      unfold wordFrom
      simp only [hread, except_ok_bind, h.mark_eq]
      cases hstep : stepBy? node ahead.head? with
      | some next =>
          match ahead, hstep, hfirst, hsteps, hlength with
          | .char c :: rest, hstep, hfirst, hsteps, hlength =>
              obtain ⟨-, hnext⟩ := spelled_find? hspelled.1 hstep
              rw [List.length_cons] at hsteps hlength
              rw [wordAt_step rest hstep hspelled]
              exact ih hfirst (by omega) (by omega) hnext
      | none =>
          rw [wordAt_stop hstep]
          have hname : ∀ {unit? : Option Symbol} {reader : Reader},
              Peeked site (extra + 1) ahead unit? reader → reader.text = first.text →
              Gives site (identifier (bound reader) unit?
                (Glyph.reach site.glyphs (extra + 1)) reader)
                (.whole .identifier (extra + identifierSize ahead)) := by
            intro unit? reader hpeeked htext
            refine identifier_gives hpeeked ?_ hlength (by omega)
            unfold bound
            rw [htext]
            omega
          cases hnode : node.entry with
          | none =>
              simp only [ite_self]
              exact hname hpeeked rfl
          | some entry =>
              obtain ⟨hkind, herror⟩ := proper_of_spelling? (hspelled.2 entry hnode)
              obtain ⟨after, hjoin, hafter, hjoined⟩ := joinHalves_peeked hpeeked
              have htext : after.text = first.text := by rw [hafter.text_eq, hfirst.text_eq]
              simp only [hjoin, except_ok_bind, Symbol.isPart_headUnit]
              by_cases hgoes : goesOn ahead = true
              · rw [if_pos hgoes, if_pos hgoes]
                exact hname hjoined htext
              · rw [if_neg hgoes, if_neg hgoes]
                exact keyword_gives hjoined hlength rfl hkind herror

end PushBack

end Manifest
