import Manifest.Proofs.Lexing.Joining

/-!
# Words and lexemes of joined halves

A word makes the same characters in both rows, and so does each lexeme: its kind and its
flags are decided on characters, and it never ends between two halves.
-/

namespace Manifest

namespace Symbol

variable {symbols rest : List Symbol} {unit : Symbol} {count characters : Nat}

/-! ## Identifiers and variables -/

theorem makes_headUnit (h : symbols ≠ []) : Makes symbols (headUnit symbols).2 1 := by
  induction symbols using joinPairs.induct with
  | case1 bits lowBits rest _ => exact .pair bits lowBits (.nothing rest)
  | case2 unit rest hnot _ =>
      have hone : (headUnit (unit :: rest)).2 = 1 := by
        unfold headUnit
        split
        · rename_i bits lowBits after heq
          obtain ⟨hunit, hrest⟩ := List.cons.inj heq
          exact (hnot bits lowBits after hunit hrest).elim
        · rfl
        · rfl
      rw [hone]
      exact .alone (joinPairs_alone hnot) (.nothing rest)
  | case3 => exact (h rfl).elim

theorem ne_nil_of_goesOn (h : goesOn symbols = true) : symbols ≠ [] := by
  rintro rfl
  cases h

/-- Behind the unit at the head, the joined row is one character further on. -/
theorem joinPairs_drop_headUnit (h : goesOn symbols = true) :
    joinPairs (symbols.drop (headUnit symbols).2) =
      (joinPairs symbols).drop (headUnit (joinPairs symbols)).2 := by
  rw [headUnit_joinPairs]
  exact (makes_headUnit (ne_nil_of_goesOn h)).drop

theorem length_drop_headUnit_lt (h : goesOn symbols = true) :
    (symbols.drop (headUnit symbols).2).length < symbols.length := by
  have hpos := headUnit_pos symbols
  have hle := headUnit_le h
  rw [List.length_drop]
  omega

theorem makes_identifier (symbols : List Symbol) :
    Makes symbols (identifierSize symbols) (identifierSize (joinPairs symbols)) := by
  induction hlength : symbols.length using Nat.strongRecOn generalizing symbols with
  | ind length ih =>
      cases hgoes : goesOn symbols with
      | true =>
          have hjoined : goesOn (joinPairs symbols) = true := by rw [goesOn_joinPairs, hgoes]
          have hshorter := length_drop_headUnit_lt hgoes
          have hrest := ih _ (by omega) (symbols.drop (headUnit symbols).2) rfl
          rw [joinPairs_drop_headUnit hgoes] at hrest
          rw [identifierSize_goesOn hgoes, identifierSize_goesOn hjoined, headUnit_joinPairs]
          rw [headUnit_joinPairs] at hrest
          exact (makes_headUnit (ne_nil_of_goesOn hgoes)).trans hrest
      | false =>
          have hjoined : goesOn (joinPairs symbols) = false := by rw [goesOn_joinPairs, hgoes]
          by_cases hcolons : ∃ rest, symbols = .char ':' :: .char ':' :: rest
          · rcases hcolons with ⟨rest, rfl⟩
            have hrest := ih _ (by simp only [List.length_cons] at hlength; omega) rest rfl
            rw [joinPairs_char, joinPairs_char, identifierSize_colons, identifierSize_colons,
              Nat.add_comm 2, Nat.add_comm 2]
            exact .char ':' (.char ':' hrest)
          · have hnone : ∀ after, joinPairs symbols ≠ .char ':' :: .char ':' :: after := by
              intro after hafter
              obtain ⟨rest, rfl, hrest⟩ := eq_cons_of_joinPairs (by decide) hafter
              obtain ⟨more, rfl, -⟩ := eq_cons_of_joinPairs (by decide) hrest
              exact hcolons ⟨more, rfl⟩
            rw [identifierSize_stop hgoes (not_exists.1 hcolons), identifierSize_stop hjoined hnone]
            exact .nothing symbols

theorem makes_replicate {c : Char} (colons : Nat) (h : Makes rest count characters) :
    Makes (List.replicate colons (.char c) ++ rest) (colons + count) (colons + characters) := by
  induction colons with
  | zero =>
      rw [Nat.zero_add, Nat.zero_add]
      exact h
  | succ colons ih =>
      rw [List.replicate_succ, List.cons_append, Nat.add_right_comm colons 1 count,
        Nat.add_right_comm colons 1 characters]
      exact .char c ih

/-- A variable takes as many characters of the joined row, the colons before it included. -/
theorem makes_variable (colons : Nat) (symbols : List Symbol) :
    Makes (List.replicate colons (.char ':') ++ symbols) (variableSize colons symbols)
      (variableSize colons (joinPairs symbols)) := by
  -- Colons count only when a part follows; until then they stand before what is left.
  induction hlength : symbols.length using Nat.strongRecOn generalizing symbols colons with
  | ind length ih =>
      cases hgoes : goesOn symbols with
      | true =>
          have hjoined : goesOn (joinPairs symbols) = true := by rw [goesOn_joinPairs, hgoes]
          have hshorter := length_drop_headUnit_lt hgoes
          have hrest := ih _ (by omega) 0 (symbols.drop (headUnit symbols).2) rfl
          rw [joinPairs_drop_headUnit hgoes, headUnit_joinPairs] at hrest
          rw [variableSize_goesOn hgoes, variableSize_goesOn hjoined, headUnit_joinPairs,
            Nat.add_assoc, Nat.add_assoc]
          exact makes_replicate colons ((makes_headUnit (ne_nil_of_goesOn hgoes)).trans hrest)
      | false =>
          have hjoined : goesOn (joinPairs symbols) = false := by rw [goesOn_joinPairs, hgoes]
          by_cases hcolon : ∃ rest, symbols = .char ':' :: rest
          · rcases hcolon with ⟨rest, rfl⟩
            have hrest := ih _ (by simp only [List.length_cons] at hlength; omega) (colons + 1)
              rest rfl
            rw [List.replicate_succ', List.append_assoc] at hrest
            rw [joinPairs_char, variableSize_colon, variableSize_colon]
            exact hrest
          · have hnone : ∀ after, joinPairs symbols ≠ .char ':' :: after := by
              intro after hafter
              obtain ⟨rest, rfl, -⟩ := eq_cons_of_joinPairs (by decide) hafter
              exact hcolon ⟨rest, rfl⟩
            rw [variableSize_stop hgoes (not_exists.1 hcolon), variableSize_stop hjoined hnone]
            exact .nothing _

/-! ## Keywords -/

/-- A block or a value follows in both rows, or in neither. -/
theorem opensBlockOrAssigns_joinPairs (symbols : List Symbol) :
    opensBlockOrAssigns (joinPairs symbols) = opensBlockOrAssigns symbols := by
  unfold opensBlockOrAssigns
  induction symbols using joinPairs.induct with
  | case1 bits lowBits rest _ =>
      have hblank : (Symbol.char (joined bits lowBits)).isBlank = false :=
        isBlank_joined bits lowBits
      have hbrace : joined bits lowBits ≠ '\x7b' := joined_ne bits lowBits (by decide)
      have hequals : joined bits lowBits ≠ '=' := joined_ne bits lowBits (by decide)
      have hhigh : (Symbol.high bits).isBlank = false := rfl
      rw [joinPairs, List.dropWhile_cons_of_neg (by simp [hblank]),
        List.dropWhile_cons_of_neg (by simp [hhigh])]
      simp [hbrace, hequals]
  | case2 unit rest hnot ih =>
      rw [joinPairs_alone hnot]
      by_cases hblank : unit.isBlank = true
      · rw [List.dropWhile_cons_of_pos hblank, List.dropWhile_cons_of_pos hblank]
        exact ih
      · rw [List.dropWhile_cons_of_neg hblank, List.dropWhile_cons_of_neg hblank]
        cases unit <;> rfl
  | case3 => rfl

/-- No key below a node takes two halves. -/
def KeysBasic : KeywordBranches → Bool
  | .nil => true
  | .cons key _ below others => decide (key.toNat < 0x10000) && KeysBasic below && KeysBasic others

theorem keysBasic_keywordTrie : KeysBasic keywordTrie.branches = true := by
  decide +kernel

theorem keysBasic_find? {branches : KeywordBranches} {c : Char} {node : KeywordTrie}
    (h : KeysBasic branches = true) (hfind : branches.find? c = some node) :
    c.toNat < 0x10000 ∧ KeysBasic node.branches = true := by
  induction branches with
  | nil => cases hfind
  | cons key entry below others _ ih =>
      simp only [KeysBasic, Bool.and_eq_true, decide_eq_true_eq] at h
      rcases h with ⟨⟨hkey, hbelow⟩, hothers⟩
      unfold KeywordBranches.find? at hfind
      split at hfind
      · rename_i hc
        subst hc
        obtain rfl : ⟨entry, below⟩ = node := Option.some.inj hfind
        exact ⟨hkey, hbelow⟩
      · exact ih hothers hfind

theorem step_joined {node : KeywordTrie} (hnode : KeysBasic node.branches = true)
    (bits lowBits : Fin 0x400) : node.step (joined bits lowBits) = none := by
  cases hstep : node.step (joined bits lowBits) with
  | none => rfl
  | some next =>
      obtain ⟨hbasic, -⟩ := keysBasic_find? hnode hstep
      exact (joined_ne bits lowBits hbasic rfl).elim

/-- The keyword at the head is the same in both rows, and takes as many symbols. -/
theorem keyword?_joinPairs {node : KeywordTrie} (hnode : KeysBasic node.branches = true)
    (symbols : List Symbol) : keyword? node (joinPairs symbols) = keyword? node symbols := by
  induction symbols using joinPairs.induct generalizing node with
  | case1 bits lowBits rest _ =>
      have hgoes := goesOn_joinPairs (.high bits :: .low lowBits :: rest)
      have hhigh : PushBack.stepBy? node (some (.high bits)) = none := rfl
      have hjoined : PushBack.stepBy? node (some (.char (joined bits lowBits))) = none :=
        step_joined hnode bits lowBits
      rw [joinPairs] at hgoes ⊢
      rw [PushBack.keyword?_stop hjoined, PushBack.keyword?_stop hhigh, hgoes]
  | case2 unit rest hnot ih =>
      have hgoes := goesOn_joinPairs (unit :: rest)
      rw [joinPairs_alone hnot] at hgoes ⊢
      cases hstep : PushBack.stepBy? node (some unit) with
      | some next =>
          cases unit with
          | high bits => cases hstep
          | low bits => cases hstep
          | char c =>
              rcases keysBasic_find? hnode hstep with ⟨-, hnext⟩
              rw [PushBack.keyword?_step _ hstep, PushBack.keyword?_step _ hstep, ih hnext]
      | none =>
          have hstop : PushBack.stepBy? node (unit :: rest).head? = none := hstep
          have hstop' : PushBack.stepBy? node (unit :: joinPairs rest).head? = none := hstep
          rw [PushBack.keyword?_stop hstop, PushBack.keyword?_stop hstop', hgoes]
  | case3 => rfl

theorem makes_keyword {node : KeywordTrie} {entry : KeywordEntry} {size : Nat}
    (h : keyword? node symbols = some (entry, size)) : Makes symbols size size := by
  induction symbols generalizing node size with
  | nil =>
      obtain ⟨found, -, hpair⟩ := Option.map_eq_some_iff.1 h
      obtain ⟨-, rfl⟩ := Prod.mk.inj hpair
      exact .nothing []
  | cons unit rest ih =>
      cases hstep : PushBack.stepBy? node (some unit) with
      | none =>
          have hstop : PushBack.stepBy? node (unit :: rest).head? = none := hstep
          rw [PushBack.keyword?_stop hstop] at h
          split at h
          · cases h
          · obtain ⟨found, -, hpair⟩ := Option.map_eq_some_iff.1 h
            obtain ⟨-, rfl⟩ := Prod.mk.inj hpair
            exact .nothing _
      | some next =>
          rw [PushBack.keyword?_step rest hstep] at h
          obtain ⟨⟨found, count⟩, hfound, hpair⟩ := Option.map_eq_some_iff.1 h
          obtain ⟨rfl, rfl⟩ := Prod.mk.inj hpair
          match unit, hstep with
          | .char c, _ => exact .char c (ih hfound)

theorem keyword?_pos {entry : KeywordEntry} {size : Nat}
    (h : keyword? keywordTrie symbols = some (entry, size)) : 0 < size := by
  refine Nat.pos_of_ne_zero ?_
  rintro rfl
  have hroot : keywordTrie.entry = none := by decide +kernel
  cases hstep : PushBack.stepBy? keywordTrie symbols.head? with
  | none =>
      rw [PushBack.keyword?_stop hstep, hroot, Option.map_none, ite_self] at h
      cases h
  | some next =>
      match symbols, hstep with
      | unit :: rest, hstep =>
          rw [PushBack.keyword?_step rest hstep] at h
          obtain ⟨⟨found, count⟩, -, hpair⟩ := Option.map_eq_some_iff.1 h
          obtain ⟨-, hsize⟩ := Prod.mk.inj hpair
          cases hsize

end Symbol

namespace Lexeme

open Manifest.Symbol (joinPairs joined Makes EndsAlike identifierSize)

/-- Two lexemes differ at most in their size, and that of the first is counted in symbols,
that of the other in the characters that these make. -/
structure Alike (symbols : List Symbol) (lexeme other : Lexeme) : Prop where
  makes : Makes symbols lexeme.size other.size
  kind_eq : lexeme.kind = other.kind
  isPartial_eq : lexeme.isPartial = other.isPartial
  hasEscape_eq : lexeme.hasEscape = other.hasEscape

variable {symbols rest : List Symbol} {count characters : Nat} {bits lowBits : Fin 0x400}
  {multiline : Bool}

theorem Alike.whole (kind : TokenKind) (c : Char) (h : Makes rest count characters) :
    Alike (.char c :: rest) (.whole kind count) (.whole kind characters) :=
  ⟨.char c h, rfl, rfl, rfl⟩

theorem Alike.literal {ending other : LiteralEnd} (kind : TokenKind) (c : Char)
    (h : EndsAlike rest ending other) :
    Alike (.char c :: rest) (.literal kind 0 ending) (.literal kind 0 other) where
  makes := by
    show Makes _ (0 + ending.size + 1) (0 + other.size + 1)
    rw [Nat.zero_add, Nat.zero_add]
    exact .char c h.makes
  kind_eq := rfl
  isPartial_eq := congrArg not h.closed_eq
  hasEscape_eq := h.escaped_eq

/-! ## Operators and separators -/

theorem spelling?_basic {kind : TokenKind} {spelling : List Char} {c : Char}
    (h : kind.spelling? = some spelling) (hc : c ∈ spelling) : c.toNat < 0x10000 := by
  have hall : kind.spelling?.all (fun spelling => spelling.all (·.toNat < 0x10000)) = true := by
    cases kind <;> rfl
  rw [h, Option.all_some, List.all_eq_true] at hall
  exact of_decide_eq_true (hall c hc)

/-- No operator holds a character that is made of halves. -/
theorem operator?_joined (spelling : List Char) (bits lowBits : Fin 0x400) :
    TokenKind.operator? (spelling ++ [joined bits lowBits]) = none := by
  cases hfound : TokenKind.operator? (spelling ++ [joined bits lowBits]) with
  | none => rfl
  | some kind =>
      have hbasic := spelling?_basic (PushBack.spelling?_of_operator? hfound)
        (List.mem_append_right spelling (List.mem_singleton.2 rfl))
      exact (Symbol.joined_ne bits lowBits hbasic rfl).elim

theorem separator?_joined (bits lowBits : Fin 0x400) :
    TokenKind.separator? [joined bits lowBits] = none := by
  cases hfound : TokenKind.separator? [joined bits lowBits] with
  | none => rfl
  | some kind =>
      have hbasic := spelling?_basic (PushBack.spelling?_of_separator? hfound)
        (List.mem_singleton.2 rfl)
      exact (Symbol.joined_ne bits lowBits hbasic rfl).elim

/-- An operator goes on alike in both rows. -/
theorem operatorFrom_joinPairs (spelling : List Char) (kind : TokenKind)
    (symbols : List Symbol) :
    operatorFrom spelling kind (joinPairs symbols) = operatorFrom spelling kind symbols ∧
      Makes symbols (operatorFrom spelling kind symbols).extra
        (operatorFrom spelling kind symbols).extra := by
  induction symbols using Symbol.joinPairs.induct generalizing spelling kind with
  | case1 bits lowBits rest _ =>
      have hhigh : PushBack.longer? spelling (some (.high bits)) = none := rfl
      have hjoined : PushBack.longer? spelling (some (.char (joined bits lowBits))) = none := by
        simp [PushBack.longer?, operator?_joined]
      rw [joinPairs, PushBack.operatorFrom_none hjoined, PushBack.operatorFrom_none hhigh]
      exact ⟨rfl, .nothing _⟩
  | case2 unit rest hnot ih =>
      rw [Symbol.joinPairs_alone hnot]
      cases unit with
      | high bits => exact ⟨rfl, .nothing _⟩
      | low bits => exact ⟨rfl, .nothing _⟩
      | char c =>
          cases hlonger : TokenKind.operator? (spelling ++ [c]) with
          | none =>
              simp only [operatorFrom, hlonger]
              exact ⟨trivial, .nothing _⟩
          | some longer =>
              obtain ⟨hrest, hmakes⟩ := ih (spelling ++ [c]) longer
              simp only [operatorFrom, hlonger, hrest]
              exact ⟨trivial, .char c hmakes⟩
  | case3 => exact ⟨rfl, .nothing []⟩

/-! ## Words -/

theorem word_alike (c : Char) (rest : List Symbol) :
    Alike (.char c :: rest) (word (.char c) rest) (word (.char c) (joinPairs rest)) := by
  have hsame := Symbol.keyword?_joinPairs Symbol.keysBasic_keywordTrie (.char c :: rest)
  rw [Symbol.joinPairs_char] at hsame
  unfold word
  rw [hsame]
  cases hkeyword : Symbol.keyword? keywordTrie (.char c :: rest) with
  | none => exact .whole .identifier c (Symbol.makes_identifier rest)
  | some found =>
      rcases found with ⟨entry, size⟩
      have hmakes := Symbol.makes_keyword hkeyword
      have hpos := Symbol.keyword?_pos hkeyword
      have hopens : Symbol.opensBlockOrAssigns ((.char c :: joinPairs rest).drop size) =
          Symbol.opensBlockOrAssigns ((.char c :: rest).drop size) := by
        rw [← Symbol.opensBlockOrAssigns_joinPairs ((.char c :: rest).drop size), hmakes.drop,
          Symbol.joinPairs_char]
      have hwhole : ∀ kind, Alike (.char c :: rest) (.whole kind (size - 1))
          (.whole kind (size - 1)) := by
        intro kind
        refine ⟨?_, rfl, rfl, rfl⟩
        show Makes _ (size - 1 + 1) (size - 1 + 1)
        rw [Nat.sub_add_cancel hpos]
        exact hmakes
      dsimp only
      rw [hopens]
      split
      · exact hwhole _
      · exact hwhole _

theorem slash_alike (rest : List Symbol) :
    Alike (.char '/' :: rest) (slash rest) (slash (joinPairs rest)) := by
  by_cases hstar : rest.head? = some (.char '*')
  · obtain ⟨more, rfl⟩ := List.head?_eq_some_iff.1 hstar
    have hending := Symbol.commentRest_alike false more
    rw [Symbol.joinPairs_char, PushBack.slash_star, PushBack.slash_star]
    refine ⟨?_, rfl, congrArg not hending.closed_eq, hending.escaped_eq⟩
    show Makes _ (1 + (Symbol.blockCommentEnd more).size + 1)
      (1 + (Symbol.blockCommentEnd (joinPairs more)).size + 1)
    rw [Nat.add_comm 1, Nat.add_comm 1]
    exact .char '/' (.char '*' hending.makes)
  · have hother := mt (Symbol.head?_joinPairs (by decide) rest).1 hstar
    rw [PushBack.slash_regexp hstar, PushBack.slash_regexp hother]
    exact .literal .regexp '/' (Symbol.regexpRest_alike false rest)

/-! ## Lexemes -/

theorem ofChar_alike (multiline : Bool) (c : Char) :
    ∀ rest, Alike (.char c :: rest) (ofChar multiline c rest)
      (ofChar multiline c (joinPairs rest)) := by
  apply ofChar_cases multiline c
    (motive := fun lexeme => ∀ rest, Alike (.char c :: rest) (lexeme rest)
      (lexeme (joinPairs rest)))
  · intro _ rest
    exact .whole .int c (Symbol.makes_run (fun _ => rfl) Symbol.isDigit_joined rest)
  · intro _ rest
    exact .whole .comment c (Symbol.makes_line rest)
  · intro hquote rest
    apply Alike.literal
    rcases hquote with rfl | rfl
    · exact (Symbol.stringEnd_alike (by decide) (by decide) rest).1
    · exact (Symbol.stringEnd_alike (by decide) (by decide) rest).1
  · intro _ rest
    exact .whole .variable c (Symbol.makes_variable 0 rest)
  · rintro rfl rest
    exact slash_alike rest
  · intro kind _ rest
    obtain ⟨hsame, hmakes⟩ := operatorFrom_joinPairs [c] kind rest
    rw [hsame]
    exact ⟨.char c hmakes, rfl, rfl, rfl⟩
  · intro kind _ rest
    exact .whole kind c (.nothing rest)
  · intro _ rest
    exact word_alike c rest
  · intro _ rest
    exact .whole .whitespace c (Symbol.makes_run (fun _ => rfl) Symbol.isBlank_joined rest)
  · intro _ rest
    exact .whole .error c (.nothing rest)

/-- A character made of halves begins an identifier or nothing at all. -/
theorem ofChar_joined (bits lowBits : Fin 0x400) (rest : List Symbol) :
    ofChar multiline (joined bits lowBits) rest =
      if isIdentifierStart (joined bits lowBits) then
        whole .identifier (identifierSize rest)
      else
        whole .error 0 := by
  have hdigit := Symbol.isDigit_joined bits lowBits
  have hother : ∀ {c : Char}, c.toNat < 0x10000 → joined bits lowBits ≠ c :=
    Symbol.joined_ne bits lowBits
  have hoperator : TokenKind.operator? [joined bits lowBits] = none := operator?_joined [] _ _
  unfold ofChar
  rw [if_neg (by rw [hdigit]; decide), if_neg (hother (by decide)),
    if_neg (not_or.2 ⟨hother (by decide), hother (by decide)⟩), if_neg (hother (by decide)),
    if_neg (hother (by decide)), hoperator, separator?_joined]
  dsimp only
  by_cases hstart : isIdentifierStart (joined bits lowBits) = true
  · have hstep : PushBack.stepBy? keywordTrie (some (.char (joined bits lowBits))) = none :=
      Symbol.step_joined Symbol.keysBasic_keywordTrie bits lowBits
    have hgoes : Symbol.goesOn (.char (joined bits lowBits) :: rest) = true :=
      isIdentifierPart_of_start hstart
    have hkeyword : Symbol.keyword? keywordTrie (.char (joined bits lowBits) :: rest) = none := by
      rw [PushBack.keyword?_stop hstep, if_pos hgoes]
    rw [if_pos hstart, if_pos hstart]
    unfold word
    rw [hkeyword]
  · rw [if_neg hstart, if_neg hstart, Symbol.isBlank_joined]
    rfl

/-- Two halves make the lexeme of their character. -/
theorem first_pair_alike (multiline : Bool) (bits lowBits : Fin 0x400) (rest : List Symbol) :
    Alike (.high bits :: .low lowBits :: rest)
      (first multiline (.high bits) (.low lowBits :: rest))
      (ofChar multiline (joined bits lowBits) (joinPairs rest)) := by
  rw [ofChar_joined, first]
  by_cases hstart : isIdentifierStart (joined bits lowBits) = true
  · have hmakes := Symbol.makes_identifier rest
    rw [if_pos hstart, if_pos hstart]
    refine ⟨?_, rfl, rfl, rfl⟩
    show Makes _ (1 + identifierSize rest + 1) (identifierSize (joinPairs rest) + 1)
    rw [Nat.add_right_comm, Nat.add_comm _ (identifierSize rest)]
    exact .pair bits lowBits hmakes
  · rw [if_neg hstart, if_neg hstart]
    exact ⟨.pair bits lowBits (.nothing rest), rfl, rfl, rfl⟩

theorem first_high (multiline : Bool) {ahead : List Symbol}
    (h : ∀ lowBits after, ahead ≠ .low lowBits :: after) :
    first multiline (.high bits) ahead = whole .error 0 := by
  rw [first]
  · rintro c ⟨⟩
  · rintro _ lowBits after - hahead
    exact h lowBits after hahead

/-- The lexeme at the head of a row makes the lexeme at the head of the joined row. -/
theorem first_alike (multiline : Bool) {unit next : Symbol} {rest more : List Symbol}
    (h : joinPairs (unit :: rest) = next :: more) :
    Alike (unit :: rest) (first multiline unit rest) (first multiline next more) := by
  have herror : joinPairs (unit :: rest) = unit :: joinPairs rest →
      Alike (unit :: rest) (whole .error 0) (whole .error 0) :=
    fun halone => ⟨.alone halone (.nothing rest), rfl, rfl, rfl⟩
  match unit with
  | .char c =>
      rw [Symbol.joinPairs_char] at h
      rcases List.cons.inj h with ⟨rfl, rfl⟩
      exact ofChar_alike multiline c rest
  | .low bits =>
      rw [Symbol.joinPairs_low] at h
      rcases List.cons.inj h with ⟨rfl, rfl⟩
      exact herror (Symbol.joinPairs_low bits rest)
  | .high bits =>
      by_cases hlow : ∃ lowBits after, rest = .low lowBits :: after
      · rcases hlow with ⟨lowBits, after, rfl⟩
        rw [joinPairs] at h
        rcases List.cons.inj h with ⟨rfl, rfl⟩
        exact first_pair_alike multiline bits lowBits after
      · have hrest : ∀ lowBits after, rest ≠ .low lowBits :: after :=
          fun lowBits after hrest => hlow ⟨lowBits, after, hrest⟩
        have halone : joinPairs (.high bits :: rest) = .high bits :: joinPairs rest :=
          Symbol.joinPairs_alone fun _ lowBits after _ => hrest lowBits after
        have hmore : ∀ lowBits after, joinPairs rest ≠ .low lowBits :: after := by
          intro lowBits after hjoined
          have hhead : (joinPairs rest).head? = some (.low lowBits) := by
            rw [hjoined]
            rfl
          rw [Symbol.head?_joinPairs_of (by simp) (by simp)] at hhead
          rcases List.head?_eq_some_iff.1 hhead with ⟨more, hmore⟩
          exact hrest lowBits more hmore
        rw [halone] at h
        rcases List.cons.inj h with ⟨rfl, rfl⟩
        rw [first_high multiline hrest, first_high multiline hmore]
        exact herror halone

end Lexeme

end Manifest
