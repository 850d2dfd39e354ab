import Mathlib.Data.List.Infix
import Manifest.Proofs.Lexing.Grammar
import Manifest.Proofs.Lexing.Names

/-!
# Tokens that go on as far as they can

A number is the longest run of digits, a blank the longest run of blank units, an operator the
longest spelling of one, and a variable the longest row of parts and colons that ends with a
part.  So no two numbers stand side by side, and no two blanks.
-/

namespace Manifest

namespace Symbol

variable {Form : List Symbol → Prop} {test : Symbol → Bool} {unit : Symbol}
  {ahead own before rest name more : List Symbol}

/-- A row begins with `own`, which has a form, and with no longer row of that form. -/
structure Longest (Form : List Symbol → Prop) (ahead own : List Symbol) : Prop where
  begins : own <+: ahead
  hasForm : Form own
  longest : ∀ other, other <+: ahead → Form other → other.length ≤ own.length

theorem Longest.cons {Behind : List Symbol → Prop} (hform : ∀ row, Form (unit :: row) ↔ Behind row)
    (h : Longest Behind rest own) : Longest Form (unit :: rest) (unit :: own) where
  begins := (List.prefix_cons_inj unit).2 h.begins
  hasForm := (hform own).2 h.hasForm
  longest := by
    intro other hother hrow
    cases other with
    | nil => exact Nat.zero_le _
    | cons first more =>
        obtain ⟨rfl, hmore⟩ := List.cons_prefix_cons.1 hother
        exact Nat.succ_le_succ (h.longest more hmore ((hform more).1 hrow))

/-! ## Runs -/

def AllOf (test : Symbol → Bool) (row : List Symbol) : Prop :=
  ∀ unit ∈ row, test unit = true

theorem longest_takeWhile (test : Symbol → Bool) (ahead : List Symbol) :
    Longest (AllOf test) ahead (ahead.takeWhile test) where
  begins := List.takeWhile_prefix test
  hasForm := fun _ => List.mem_takeWhile_imp
  longest := by
    rintro other ⟨behind, rfl⟩ hother
    rw [List.takeWhile_append_of_pos hother, List.length_append]
    exact Nat.le_add_right _ _

theorem longest_runSize (hunit : test unit = true) (rest : List Symbol) :
    Longest (AllOf test) (unit :: rest) ((unit :: rest).take (Lexeme.runSize test rest + 1)) := by
  have hrun : (unit :: rest).take (Lexeme.runSize test rest + 1) =
      (unit :: rest).takeWhile test := by
    rw [List.take_succ_cons, List.takeWhile_cons_of_pos hunit, Lexeme.runSize,
      ← List.prefix_iff_eq_take.1 (List.takeWhile_prefix test)]
  rw [hrun]
  exact longest_takeWhile test _

/-- No other run follows the longest one. -/
theorem Longest.nothing_behind (h : Longest (AllOf test) (own ++ rest) own)
    (hmore : more <+: rest) (hall : AllOf test more) : more = [] := by
  have hlonger : AllOf test (own ++ more) := fun unit hunit =>
    (List.mem_append.1 hunit).elim (h.hasForm unit) (hall unit)
  have hle := h.longest _ ((List.prefix_append_right_inj own).2 hmore) hlonger
  rw [List.length_append] at hle
  exact List.eq_nil_of_length_eq_zero (by omega)

/-! ## Operators -/

def IsOperator (row : List Symbol) : Prop :=
  ∃ spelling, row = spelling.map .char ∧ (TokenKind.operator? spelling).isSome = true

/-- Each beginning of an operator is one, so that reading on while there is one is enough. -/
theorem isSome_operator?_of_prefix {shorter longer : List Char} (h : shorter <+: longer)
    (hsome : shorter ≠ []) (hlonger : (TokenKind.operator? longer).isSome = true) :
    (TokenKind.operator? shorter).isSome = true := by
  obtain ⟨kind, hkind⟩ := Option.isSome_iff_exists.1 hlonger
  have hclosed : TokenKind.operators.all (fun kind => kind.spelling?.all fun spelling =>
      spelling.inits.all fun start => start.isEmpty || (TokenKind.operator? start).isSome) = true := by
    decide
  have hstarts := List.all_eq_true.1 hclosed kind (List.mem_of_find?_eq_some hkind)
  rw [PushBack.spelling?_of_operator? hkind, Option.all_some] at hstarts
  have hstart := List.all_eq_true.1 hstarts shorter ((List.mem_inits shorter longer).2 h)
  simpa [hsome] using hstart

theorem isOperator_cons {spelling : List Char}
    (h : IsOperator (spelling.map .char ++ unit :: more)) :
    ∃ c, unit = .char c ∧ (TokenKind.operator? (spelling ++ [c])).isSome = true := by
  obtain ⟨longer, hrow, hlonger⟩ := h
  obtain ⟨left, right, rfl, hleft, hright⟩ := List.map_eq_append_iff.1 hrow.symm
  obtain ⟨c, behind, rfl, hc, -⟩ := List.map_eq_cons_iff.1 hright
  obtain rfl : left = spelling :=
    List.map_injective_iff.2 (fun _ _ => Symbol.char.inj) hleft
  refine ⟨c, hc.symm, isSome_operator?_of_prefix ⟨behind, by simp⟩ (by simp) hlonger⟩

/-- Where the next unit makes no operator, none goes on. -/
theorem longest_noOperator {spelling : List Char}
    (hspelling : (TokenKind.operator? spelling).isSome = true)
    (hnext : ∀ c, ahead.head? = some (.char c) → TokenKind.operator? (spelling ++ [c]) = none) :
    Longest (fun own => IsOperator (spelling.map .char ++ own)) ahead [] where
  begins := List.nil_prefix
  hasForm := ⟨spelling, by simp, hspelling⟩
  longest := by
    rintro other ⟨behind, rfl⟩ hother
    cases other with
    | nil => exact Nat.le_refl _
    | cons unit more =>
        obtain ⟨c, rfl, hlonger⟩ := isOperator_cons hother
        rw [hnext c rfl] at hlonger
        cases hlonger

/-! ## Variables -/

def isNameUnit (unit : Symbol) : Bool :=
  unit.isIdentifierPart || unit == .char ':'

/-- The form of the name of a variable: parts and colons, if there are any, and a part at the
end. -/
def IsVariableName (row : List Symbol) : Prop :=
  row = [] ∨ ∃ inner last, row = inner ++ [last] ∧ AllOf isNameUnit inner ∧
    last.isIdentifierPart = true

/-- The form of a variable: a dollar sign and a name, which may be missing. -/
def IsVariable (row : List Symbol) : Prop :=
  ∃ name, row = .char '$' :: name ∧ IsVariableName name

theorem isVariable_dollar : IsVariable (.char '$' :: name) ↔ IsVariableName name := by
  constructor
  · rintro ⟨other, hrow, hname⟩
    rw [(List.cons.inj hrow).2]
    exact hname
  · exact fun hname => ⟨name, rfl, hname⟩

theorem IsVariableName.allOf (h : IsVariableName name) : AllOf isNameUnit name := by
  rcases h with rfl | ⟨inner, last, rfl, hinner, hlast⟩
  · exact List.forall_mem_nil _
  · intro unit hunit
    rcases List.mem_append.1 hunit with hunit | hunit
    · exact hinner unit hunit
    · rw [List.mem_singleton.1 hunit, isNameUnit, hlast]
      rfl

theorem IsVariableName.behind (h : IsVariableName (before ++ more)) : IsVariableName more := by
  rcases List.eq_nil_or_concat more with rfl | ⟨inner, last, rfl⟩
  · exact .inl rfl
  · rcases h with hnil | ⟨others, part, hrow, hothers, hpart⟩
    · simp at hnil
    · rw [List.concat_eq_append, ← List.append_assoc] at hrow
      obtain ⟨rfl, hlast⟩ := List.append_inj' hrow rfl
      obtain rfl := List.singleton_inj.1 hlast
      refine .inr ⟨inner, last, List.concat_eq_append, fun unit hunit => ?_, hpart⟩
      exact hothers unit (List.mem_append_right before hunit)

theorem IsVariableName.part (hbefore : AllOf isNameUnit before)
    (hunit : unit.isIdentifierPart = true) (h : IsVariableName name) :
    IsVariableName (before ++ unit :: name) := by
  rcases h with rfl | ⟨inner, last, rfl, hinner, hlast⟩
  · exact .inr ⟨before, unit, rfl, hbefore, hunit⟩
  · refine .inr ⟨before ++ unit :: inner, last, by simp, fun other hother => ?_, hlast⟩
    rcases List.mem_append.1 hother with hother | hother
    · exact hbefore other hother
    · rcases List.mem_cons.1 hother with rfl | hother
      · rw [isNameUnit, hunit]
        rfl
      · exact hinner other hother

/-- The name goes on over units that wait for a part, and over that part. -/
theorem Longest.part (hbefore : AllOf isNameUnit before) (hunit : unit.isIdentifierPart = true)
    (h : Longest IsVariableName rest name) :
    Longest IsVariableName (before ++ unit :: rest) (before ++ unit :: name) where
  begins := (List.prefix_append_right_inj before).2 ((List.prefix_cons_inj unit).2 h.begins)
  hasForm := h.hasForm.part hbefore hunit
  longest := by
    intro other hother hname
    have hpassed : before ++ [unit] <+: before ++ unit :: rest := ⟨rest, by simp⟩
    rw [List.length_append, List.length_cons]
    rcases Nat.le_total other.length (before ++ [unit]).length with hle | hle
    · rw [List.length_append, List.length_singleton] at hle
      omega
    · obtain ⟨more, rfl⟩ := List.prefix_of_prefix_length_le hpassed hother hle
      have hrow : before ++ unit :: rest = before ++ [unit] ++ rest := by simp
      rw [hrow, List.prefix_append_right_inj] at hother
      have hmore := h.longest more hother hname.behind
      rw [List.length_append, List.length_append, List.length_singleton]
      omega

/-- No name is made of colons, and none goes on where no part and no colon follows. -/
theorem longest_noName {colons : Nat}
    (hnext : ∀ unit, ahead.head? = some unit → isNameUnit unit = false) :
    Longest IsVariableName (List.replicate colons (.char ':') ++ ahead) [] where
  begins := List.nil_prefix
  hasForm := .inl rfl
  longest := by
    intro other hother hname
    have hlength : (List.replicate colons (Symbol.char ':')).length = colons :=
      List.length_replicate
    have hbegins := List.prefix_append (List.replicate colons (.char ':')) ahead
    rcases Nat.lt_or_ge colons other.length with hlt | hle
    · obtain ⟨more, rfl⟩ := List.prefix_of_prefix_length_le hbegins hother (by omega)
      rw [List.prefix_append_right_inj] at hother
      cases more with
      | nil => simp at hlt
      | cons unit more =>
          obtain ⟨behind, rfl⟩ := hother
          have hunit := hname.behind.allOf unit List.mem_cons_self
          rw [hnext unit rfl] at hunit
          cases hunit
    · -- The row ends among the colons, so its last unit is no part.
      have hcolons := List.prefix_of_prefix_length_le hother hbegins (by omega)
      rcases hname with rfl | ⟨inner, last, rfl, -, hlast⟩
      · exact Nat.le_refl _
      · have hcolon : last = .char ':' :=
          List.eq_of_mem_replicate (hcolons.subset (by simp))
        rw [hcolon, isIdentifierPart_colon] at hlast
        cases hlast

/-- A variable is the longest row of its form; the colons before what is ahead wait for a
part. -/
theorem longest_variableSize (h : Joined ahead) (colons : Nat) :
    Longest IsVariableName (List.replicate colons (.char ':') ++ ahead)
      ((List.replicate colons (Symbol.char ':') ++ ahead).take (variableSize colons ahead)) := by
  induction ahead generalizing colons with
  | nil => exact longest_noName fun _ hnone => by cases hnone
  | cons unit rest ih =>
      have hgoes := h.goesOn_cons
      cases hpart : unit.isIdentifierPart with
      | true =>
          have hcolons : AllOf isNameUnit (List.replicate colons (Symbol.char ':')) := by
            intro other hother
            rw [List.eq_of_mem_replicate hother]
            decide +kernel
          have hsize : variableSize colons (unit :: rest) =
              (List.replicate colons (Symbol.char ':')).length + (variableSize 0 rest + 1) := by
            rw [hpart] at hgoes
            rw [variableSize_goesOn hgoes, h.headUnit_cons, List.length_replicate]
            show colons + 1 + variableSize 0 rest = _
            omega
          rw [hsize, List.take_length_add_append, List.take_succ_cons]
          exact (ih h.tail 0).part hcolons hpart
      | false =>
          rw [hpart] at hgoes
          by_cases hcolon : unit = .char ':'
          · subst hcolon
            have hrow : List.replicate colons (Symbol.char ':') ++ Symbol.char ':' :: rest =
                List.replicate (colons + 1) (Symbol.char ':') ++ rest := by
              rw [List.replicate_succ', List.append_assoc]
              rfl
            rw [variableSize_colon, hrow]
            exact ih h.tail (colons + 1)
          · have hother : isNameUnit unit = false := by
              rw [isNameUnit, hpart, Bool.false_or]
              exact beq_false_of_ne hcolon
            rw [variableSize_stop hgoes (fun rest' hrest => hcolon (List.cons.inj hrest).1)]
            refine longest_noName fun first hfirst => ?_
            rw [← Option.some.inj hfirst]
            exact hother

/-- How a token is cut from the row ahead: `own` of its units, the longest row of what its kind
stands for. -/
structure Munches (ahead own : List Symbol) (kind : TokenKind) : Prop where
  number : kind = .int → Longest (AllOf isDigit) ahead own
  blank : kind = .whitespace → Longest (AllOf isBlank) ahead own
  operator : kind ∈ TokenKind.operators → Longest IsOperator ahead own ∧
    ∃ spelling, own = spelling.map .char ∧ TokenKind.operator? spelling = some kind
  /-- The halves of a character count as that character. -/
  dollarName : kind = .variable → Longest IsVariable (joinPairs ahead) (joinPairs own)

end Symbol

namespace Lexeme

open Manifest.Symbol (Longest AllOf IsOperator IsVariable IsVariableName Munches joinPairs)

variable {multiline : Bool} {kind : TokenKind} {ahead own rest : List Symbol} {c : Char}

/-- The kinds whose tokens go on as far as they can. -/
def munching : List TokenKind :=
  .int :: .whitespace :: .variable :: TokenKind.operators

theorem munches_of_other (h : kind ∉ munching) (ahead own : List Symbol) :
    Munches ahead own kind where
  number := by
    rintro rfl
    exact (h (by decide)).elim
  blank := by
    rintro rfl
    exact (h (by decide)).elim
  operator := fun hkind =>
    (h (List.mem_cons_of_mem _ (List.mem_cons_of_mem _ (List.mem_cons_of_mem _ hkind)))).elim
  dollarName := by
    rintro rfl
    exact (h (by decide)).elim

theorem munches_int (hdigit : (Symbol.char c).isDigit = true) (rest : List Symbol) :
    Munches (.char c :: rest)
      ((.char c :: rest).take (whole .int (runSize Symbol.isDigit rest)).size) .int where
  number := fun _ => Symbol.longest_runSize hdigit rest
  blank := nofun
  operator := fun hkind => absurd hkind (by decide)
  dollarName := nofun

theorem munches_whitespace (hblank : isBlank c = true) (rest : List Symbol) :
    Munches (.char c :: rest)
      ((.char c :: rest).take (whole .whitespace (runSize Symbol.isBlank rest)).size)
      .whitespace where
  number := nofun
  blank := fun _ => by
    have hunit : (Symbol.char c).isBlank = true := hblank
    exact Symbol.longest_runSize hunit rest
  operator := fun hkind => absurd hkind (by decide)
  dollarName := nofun

theorem munches_variable (rest : List Symbol) :
    Munches (.char '$' :: rest)
      ((.char '$' :: rest).take (whole .variable (Symbol.variableSize 0 rest)).size)
      .variable where
  number := nofun
  blank := nofun
  operator := fun hkind => absurd hkind (by decide)
  dollarName := fun _ => by
    have hname := Symbol.longest_variableSize (Symbol.joined_joinPairs rest) 0
    rw [List.replicate_zero, List.nil_append] at hname
    have hown : joinPairs (rest.take (Symbol.variableSize 0 rest)) =
        (joinPairs rest).take (Symbol.variableSize 0 (joinPairs rest)) :=
      (Symbol.makes_variable 0 rest).take
    show Longest IsVariable _ (joinPairs (List.take (Symbol.variableSize 0 rest + 1) _))
    rw [List.take_succ_cons, Symbol.joinPairs_char, Symbol.joinPairs_char, hown]
    exact hname.cons fun row => Symbol.isVariable_dollar

/-! ## Operators -/

theorem longest_operatorFrom {spelling : List Char}
    (h : TokenKind.operator? spelling = some kind) (ahead : List Symbol) :
    Longest (fun own => IsOperator (spelling.map .char ++ own)) ahead
        (ahead.take (operatorFrom spelling kind ahead).extra) ∧
      ∃ longer, spelling.map .char ++ ahead.take (operatorFrom spelling kind ahead).extra =
          longer.map .char ∧
        TokenKind.operator? longer = some (operatorFrom spelling kind ahead).kind := by
  have hsome : (TokenKind.operator? spelling).isSome = true := by
    rw [h]
    rfl
  fun_induction operatorFrom spelling kind ahead with
  | case1 spelling kind c rest longer hlonger lexeme ih =>
      obtain ⟨hlongest, last, hlast, hkind⟩ := ih hlonger (by rw [hlonger]; rfl)
      refine ⟨hlongest.cons fun row => by simp, last, ?_, hkind⟩
      rw [← hlast]
      simp [lexeme]
  | case2 spelling kind c rest hnone =>
      refine ⟨Symbol.longest_noOperator hsome fun d hd => ?_, spelling, by simp [whole], h⟩
      obtain rfl := Symbol.char.inj (Option.some.inj hd)
      exact hnone
  | case3 rest spelling kind hother =>
      refine ⟨Symbol.longest_noOperator hsome fun d hd => ?_, spelling, by simp [whole], h⟩
      obtain ⟨more, rfl⟩ := List.head?_eq_some_iff.1 hd
      exact (hother d more rfl).elim

theorem munches_operator (h : TokenKind.operator? [c] = some kind) (rest : List Symbol) :
    Munches (.char c :: rest)
      ((.char c :: rest).take (operatorFrom [c] kind rest).size)
      (operatorFrom [c] kind rest).kind := by
  obtain ⟨hlongest, spelling, hspelling, hkind⟩ := longest_operatorFrom h rest
  have hmem : (operatorFrom [c] kind rest).kind ∈ TokenKind.operators :=
    List.mem_of_find?_eq_some hkind
  have hnot : ∀ {other}, other ∉ TokenKind.operators →
      (operatorFrom [c] kind rest).kind ≠ other := by
    rintro other hother rfl
    exact hother hmem
  refine ⟨fun hint => (hnot (by decide) hint).elim,
    fun hblank => (hnot (by decide) hblank).elim, fun _ => ⟨?_, spelling, hspelling, hkind⟩,
    fun hvariable => (hnot (by decide) hvariable).elim⟩
  rw [size, List.take_succ_cons]
  exact hlongest.cons fun row => Iff.rfl

/-! ## Lexemes -/

theorem not_mem_munching_word (c : Char) (rest : List Symbol) :
    (word (.char c) rest).kind ∉ munching := by
  unfold word
  cases hkeyword : Symbol.keyword? keywordTrie (.char c :: rest) with
  | none => exact (by decide : TokenKind.identifier ∉ munching)
  | some found =>
      rcases found with ⟨entry, size⟩
      rw [← Symbol.keyword?_joinPairs Symbol.keysBasic_keywordTrie,
        Symbol.keyword?_keywordTrie (Symbol.joined_joinPairs _)] at hkeyword
      have hentries : ∀ entry ∈ keywordEntries, entry.kind ∉ munching := by decide
      dsimp only
      split
      · exact (by decide : TokenKind.identifier ∉ munching)
      · exact hentries entry hkeyword.1

theorem munches_ofChar (multiline : Bool) (c : Char) :
    ∀ rest, Munches (.char c :: rest)
      ((.char c :: rest).take (ofChar multiline c rest).size) (ofChar multiline c rest).kind := by
  apply ofChar_cases multiline c
    (motive := fun lexeme => ∀ rest, Munches (.char c :: rest)
      ((.char c :: rest).take (lexeme rest).size) (lexeme rest).kind)
  case hdigit => exact munches_int
  case hcomment => exact fun _ rest => munches_of_other (by decide : .comment ∉ munching) _ _
  case hstring => exact fun _ rest => munches_of_other (by decide : .string ∉ munching) _ _
  case hvariable =>
    rintro rfl rest
    exact munches_variable rest
  case hslash =>
    intro _ rest
    unfold slash
    split
    · exact munches_of_other (by decide : .blockComment ∉ munching) _ _
    · exact munches_of_other (by decide : .regexp ∉ munching) _ _
  case hoperator => exact fun kind hkind rest => munches_operator hkind rest
  case hseparator =>
    intro kind hkind rest
    have hseparators : ∀ kind ∈ TokenKind.separators, kind ∉ munching := by decide
    exact munches_of_other (hseparators kind (List.mem_of_find?_eq_some hkind)) _ _
  case hword => exact fun _ rest => munches_of_other (not_mem_munching_word c rest) _ _
  case hblank => exact munches_whitespace
  case hother => exact fun _ rest => munches_of_other (by decide : .error ∉ munching) _ _

/-- Every lexeme is the longest one of its kind. -/
theorem munches_first (multiline : Bool) (unit : Symbol) (rest : List Symbol) :
    Munches (unit :: rest) ((unit :: rest).take (first multiline unit rest).size)
      (first multiline unit rest).kind := by
  apply first_cases multiline unit rest (motive := fun lexeme =>
    Munches (unit :: rest) ((unit :: rest).take lexeme.size) lexeme.kind)
  case hchar =>
    rintro c rfl
    exact munches_ofChar multiline c rest
  case hword => exact fun extra => munches_of_other (by decide : .identifier ∉ munching) _ _
  case hother => exact fun extra => munches_of_other (by decide : .error ∉ munching) _ _

end Lexeme

namespace Token

open Manifest.Symbol (Longest AllOf Munches)

variable {source : List Char} {first second : Token} {units more rest further : List Symbol}

/-- What is behind a token begins with what the next one takes. -/
theorem Takes.next (hfirst : first.Takes source units rest)
    (hsecond : second.Takes source more further) (hstop : first.stop = second.offset) :
    rest = more ++ further := by
  obtain ⟨before, own, behind, hdecode, -, hend, -, rfl⟩ := hfirst
  obtain ⟨before', own', behind', hdecode', hstart, -, rfl, rfl⟩ := hsecond
  have hrow : (before ++ own) ++ behind = before' ++ (own' ++ behind') := by
    rw [List.append_assoc, ← hdecode, hdecode']
  have hleft : before ++ own = before' :=
    Glyph.eq_of_totalWidth ⟨behind, by rw [hdecode, List.append_assoc]⟩
      ⟨own' ++ behind', hdecode'.symm⟩ (by omega)
  rw [hleft, List.append_cancel_left_eq] at hrow
  rw [hrow]
  exact List.map_append

/-- Two neighbours are not both made of the units of one test. -/
theorem Takes.not_both {test : Symbol → Bool} (hfirst : first.Takes source units rest)
    (hsecond : second.Takes source more further) (hstop : first.stop = second.offset)
    (hmore : more ≠ []) (hrun : Longest (AllOf test) (units ++ rest) units) :
    ¬Longest (AllOf test) (more ++ further) more := by
  intro hnext
  rw [hfirst.next hsecond hstop] at hrun
  exact hmore (hrun.nothing_behind (List.prefix_append more further) hnext.hasForm)

end Token

namespace TokenStream

variable {multiline : Bool} {source : List Char} {token : Token}

theorem exists_munches (h : token ∈ (lex multiline source).tokens) :
    ∃ units rest, token.Takes source units rest ∧ units ≠ [] ∧
      Symbol.Munches (units ++ rest) units token.kind := by
  obtain ⟨unit, rest, htakes, hkind, -⟩ := exists_takes h
  refine ⟨_, _, htakes, ?_, ?_⟩
  · rw [Lexeme.size, List.take_succ_cons]
    exact List.cons_ne_nil _ _
  · rw [List.take_append_drop, hkind]
    exact Lexeme.munches_first multiline unit rest

/-- Every number, blank, operator and variable of a text goes on as far as it can, so that no
two numbers and no two blanks are neighbours. -/
theorem lex_munches (multiline : Bool) (source : List Char) :
    PushBack.lex multiline source = .ok (lex multiline source) ∧
      (∀ token ∈ (lex multiline source).tokens, ∃ units rest,
        token.Takes source units rest ∧ units ≠ [] ∧
          Symbol.Munches (units ++ rest) units token.kind) ∧
      ∀ before first second behind,
        (lex multiline source).tokens = before ++ first :: second :: behind →
          ¬(first.kind = .int ∧ second.kind = .int) ∧
            ¬(first.kind = .whitespace ∧ second.kind = .whitespace) := by
  refine ⟨PushBack.lex_eq multiline source, fun token => exists_munches,
    fun before first second behind hsplit => ?_⟩
  have hfirst : first ∈ (lex multiline source).tokens := by simp [hsplit]
  have hsecond : second ∈ (lex multiline source).tokens := by simp [hsplit]
  obtain ⟨units, rest, htakes, -, hmunches⟩ := exists_munches hfirst
  obtain ⟨more, further, htakes', hmore, hmunches'⟩ := exists_munches hsecond
  have htiles := (tiles_lex multiline source).1
  rw [hsplit] at htiles
  obtain ⟨middle, -, htiles⟩ := htiles.split
  have hstop : first.stop = second.offset := htiles.2.1.symm
  constructor
  · rintro ⟨hint, hint'⟩
    exact htakes.not_both htakes' hstop hmore (hmunches.number hint) (hmunches'.number hint')
  · rintro ⟨hblank, hblank'⟩
    exact htakes.not_both htakes' hstop hmore (hmunches.blank hblank) (hmunches'.blank hblank')

def writtenRuns : List Char :=
  "$a::\\ud835\\udc9c: \\u0020<<|12".toList

theorem lex_munches_writtenRuns :
    ∃ name colon blank operator number,
      (lex false writtenRuns).tokens = [name, colon, blank, operator, number] ∧
      (name.stop = 16 ∧ ∃ units rest, name.Takes writtenRuns units rest ∧
        Symbol.Longest Symbol.IsVariable (Symbol.joinPairs (units ++ rest))
          (Symbol.joinPairs units)) ∧
      (blank.stop = 24 ∧ ∃ units rest, blank.Takes writtenRuns units rest ∧
        Symbol.Longest (Symbol.AllOf Symbol.isBlank) (units ++ rest) units) ∧
      (operator.stop = 27 ∧ ∃ units rest, operator.Takes writtenRuns units rest ∧
        Symbol.Longest Symbol.IsOperator (units ++ rest) units) ∧
      (number.stop = 29 ∧ ∃ units rest, number.Takes writtenRuns units rest ∧
        Symbol.Longest (Symbol.AllOf Symbol.isDigit) (units ++ rest) units) ∧
      ¬(operator.kind = .int ∧ number.kind = .int) := by
  have hfacts : (lex false writtenRuns).tokens.map (fun token => (token.kind, token.stop)) =
      [(.variable, 16), (.colon, 17), (.whitespace, 24), (.leftExportCollector, 27),
        (.int, 29)] := by
    decide +kernel
  simp only [List.map_eq_cons_iff, List.map_eq_nil_iff, Prod.mk.injEq] at hfacts
  obtain ⟨name, _, htokens, ⟨hname, hname'⟩, colon, _, rfl, -, blank, _, rfl, ⟨hblank, hblank'⟩,
    operator, _, rfl, ⟨hoperator, hoperator'⟩, number, _, rfl, ⟨hnumber, hnumber'⟩, rfl⟩ := hfacts
  obtain ⟨-, hmunches, hneighbours⟩ := lex_munches false writtenRuns
  refine ⟨name, colon, blank, operator, number, htokens, ⟨hname', ?_⟩, ⟨hblank', ?_⟩,
    ⟨hoperator', ?_⟩, ⟨hnumber', ?_⟩, (hneighbours [name, colon, blank] _ _ _ htokens).1⟩
  · obtain ⟨units, rest, htakes, -, hmunch⟩ := hmunches name (by simp [htokens])
    exact ⟨units, rest, htakes, hmunch.dollarName hname⟩
  · obtain ⟨units, rest, htakes, -, hmunch⟩ := hmunches blank (by simp [htokens])
    exact ⟨units, rest, htakes, hmunch.blank hblank⟩
  · obtain ⟨units, rest, htakes, -, hmunch⟩ := hmunches operator (by simp [htokens])
    exact ⟨units, rest, htakes, (hmunch.operator (by rw [hoperator]; decide)).1⟩
  · obtain ⟨units, rest, htakes, -, hmunch⟩ := hmunches number (by simp [htokens])
    exact ⟨units, rest, htakes, hmunch.number hnumber⟩

end TokenStream

end Manifest
