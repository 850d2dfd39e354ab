import Manifest.Proofs.Lexing.Munches
import Manifest.Proofs.Lexing.Tiling
import Manifest.Proofs.Tree.Literals

/-!
# Variables as tokens and in strings

A dollar sign and a name that can stand bare in a string are one token.  Between double quotes they
are one variable; with a pair of colons in front of the name they are still one token, but the
string mentions no variable, unless the name stands in braces.
-/

namespace Manifest

variable {name text : List Char} {c : Char}

/-! ## Plain texts -/

namespace Glyph

theorem decode_plain (h : '\\' ∉ text) :
    decode text = text.map fun c => ⟨.char c, 1, false⟩ := by
  induction text with
  | nil => rfl
  | cons c text ih =>
      rw [List.mem_cons, not_or] at h
      rw [decode_cons, first, if_neg (Ne.symm h.1), List.map_cons, ← ih h.2]
      rfl

theorem symbols_plain (h : '\\' ∉ text) : symbols (decode text) = text.map .char := by
  rw [decode_plain h, symbols, List.map_map]
  rfl

end Glyph

/-! ## Names of variables -/

namespace Reference

/-- A name in the top scope, or as it is. -/
def inScope (topScope : Bool) (name : List Char) : List Char :=
  (if topScope then joint else []) ++ name

theorem lt_of_isNamePart (h : isNamePart c = true) : c.toNat < 128 := by
  delta isNamePart Char.isAlphanum Char.isAlpha Char.isUpper Char.isLower Char.isDigit at h
  simp only [Bool.or_eq_true, Bool.and_eq_true, decide_eq_true_eq, beq_iff_eq,
    UInt32.le_iff_toNat_le, ge_iff_le] at h
  change (((65 ≤ c.toNat ∧ c.toNat ≤ 90) ∨ (97 ≤ c.toNat ∧ c.toNat ≤ 122)) ∨
    (48 ≤ c.toNat ∧ c.toNat ≤ 57)) ∨ c = '_' at h
  rcases h with ((h | h) | h) | rfl
  · omega
  · omega
  · omega
  · decide

/-- Whatever goes on a name in a string also goes on an identifier. -/
theorem isIdentifierPart_of_isNamePart (h : isNamePart c = true) : isIdentifierPart c = true := by
  have hcodes : ∀ code < 128, isNamePart (Char.ofNat code) = true →
      isIdentifierPart (Char.ofNat code) = true := by
    decide +kernel
  have hascii := lt_of_isNamePart h
  rw [← Char.ofNat_toNat c] at h ⊢
  exact hcodes _ hascii h

end Reference

namespace Symbol

open Reference (isIdentifierPart_of_isNamePart isNamePart_of_start)

theorem allOf_joint : AllOf isNameUnit (Reference.joint.map .char) := by
  show ∀ unit ∈ Reference.joint.map Symbol.char, isNameUnit unit = true
  decide +kernel

theorem isVariableName_of_goesOn (h : Reference.GoesOn name) :
    IsVariableName (name.map .char) := by
  induction h with
  | nil => exact .inl rfl
  | part hpart _ ih =>
      exact .part (List.forall_mem_nil _) (isIdentifierPart_of_isNamePart hpart) ih
  | segment hstart _ ih =>
      exact .part allOf_joint (isIdentifierPart_of_isNamePart (isNamePart_of_start hstart)) ih

theorem isVariableName_of_isBareName (topScope : Bool) (h : Reference.IsBareName name) :
    IsVariableName ((Reference.inScope topScope name).map .char) := by
  cases name with
  | nil => exact (Reference.not_isBareName_nil h).elim
  | cons c more =>
      obtain ⟨hstart, hmore⟩ := Reference.isBareName_cons.1 h
      have hpart := isIdentifierPart_of_isNamePart (isNamePart_of_start hstart)
      rw [Reference.inScope, List.map_append]
      refine .part ?_ hpart (isVariableName_of_goesOn hmore)
      cases topScope with
      | false => exact List.forall_mem_nil _
      | true => exact allOf_joint

theorem joined_map_char (text : List Char) : Joined (text.map .char) := by
  unfold Joined
  induction text with
  | nil => rfl
  | cons c text ih => rw [List.map_cons, joinPairs_char, ih]

theorem length_le_variableSize (h : IsVariableName (name.map .char)) :
    name.length ≤ variableSize 0 (name.map .char) := by
  have hlongest := longest_variableSize (joined_map_char name) 0
  have hle := hlongest.longest _ List.prefix_rfl h
  rw [List.replicate_zero, List.nil_append, List.length_take, List.length_map] at hle
  omega

end Symbol

/-! ## One token -/

namespace TokenStream

/-- A dollar sign and the name of a variable are one token. -/
theorem lex_variable (multiline : Bool) (h : Symbol.IsVariableName (name.map .char)) :
    ∃ token, (lex multiline ('$' :: name)).tokens = [token] ∧ token.kind = .variable := by
  have hplain : '\\' ∉ '$' :: name := by
    intro hmem
    rcases List.mem_cons.1 hmem with heq | hmem
    · cases heq
    · have hunit := h.allOf _ (List.mem_map_of_mem hmem)
      exact absurd hunit (by decide +kernel)
  have hfirst : Lexeme.first multiline (.char '$') (name.map .char) =
      .whole .variable (Symbol.variableSize 0 (name.map .char)) := rfl
  have hbehind : (name.map Symbol.char).drop (Symbol.variableSize 0 (name.map .char)) = [] := by
    rw [List.drop_eq_nil_iff, List.length_map]
    exact Symbol.length_le_variableSize h
  have hall : Lexeme.all multiline (Glyph.symbols (Glyph.decode ('$' :: name))) =
      [.whole .variable (Symbol.variableSize 0 (name.map .char))] := by
    rw [Glyph.symbols_plain hplain, List.map_cons, Lexeme.all_cons, hfirst]
    exact congrArg _ (congrArg _ hbehind)
  refine ⟨_, congrArg (fun lexemes => (ofLexed (LexedToken.placeAll 0 _ lexemes)).tokens) hall, rfl⟩

end TokenStream

/-! ## Variables of a string -/

namespace Reference

theorem scanned_plain (h : ∀ c ∈ text, c ≠ '$' ∧ c ≠ '\\') (position : Nat) :
    Scanned position text [] := by
  induction text generalizing position with
  | nil => exact .nil
  | cons c text ih =>
      rw [List.forall_mem_cons] at h
      exact .other (fun hc => (h.1.2 hc).elim) (fun hc => (h.1.1 hc).elim) (ih h.2 _)

/-- Nothing in a name is looked at as a reference or an escape. -/
theorem plain_of_isBareName (h : IsBareName name) : ∀ c ∈ name, c ≠ '$' ∧ c ≠ '\\' := by
  intro c hc
  have hpart := part_of_isBareName h c hc
  constructor
  · rintro rfl
    exact absurd hpart (by decide)
  · rintro rfl
    exact absurd hpart (by decide)

theorem longestBare_self (h : IsBareName name) : LongestBare name name where
  begins := List.prefix_rfl
  hasForm := h
  longest := fun _ hbegins _ => hbegins.length_le

theorem findAll_bare (h : IsBareName name) :
    findAll ('$' :: name) = [⟨name, 0, name.length + 1⟩] := by
  refine (scanned_iff.1 (.reference (.inr ⟨longestBare_self h, rfl⟩) ?_)).symm
  rw [Nat.add_sub_cancel, List.drop_length]
  exact .nil

/-- No name begins with a colon, so nothing is found behind the dollar sign. -/
theorem findAll_topScope (h : IsBareName name) : findAll ('$' :: inScope true name) = [] := by
  have hplain : '$' ≠ '\\' := by decide
  refine (scanned_iff.1
    (.other (fun h => (hplain h).elim) (fun _ found length hspells => ?_) ?_)).symm
  · rcases hspells with ⟨⟨-, behind, hbraced⟩, -⟩ | ⟨hbare, -⟩
    · cases hbraced
    · cases found with
      | nil => exact not_isBareName_nil hbare.hasForm
      | cons c more =>
          obtain ⟨behind, hrow⟩ := hbare.begins
          obtain ⟨rfl, -⟩ := List.cons.inj hrow
          exact absurd (isBareName_cons.1 hbare.hasForm).1 (by decide)
  · have hjoint : ∀ c ∈ joint, c ≠ '$' ∧ c ≠ '\\' := by simp [joint]
    exact scanned_plain (fun c hc =>
      (List.mem_append.1 hc).elim (hjoint c) (plain_of_isBareName h c)) _

theorem findAll_braced (h : IsBracedName name) :
    findAll ('$' :: '\x7b' :: name ++ ['\x7d']) = [⟨name, 0, name.length + 3⟩] := by
  have hspells : Spells ('\x7b' :: name ++ ['\x7d']) name (name.length + 3) :=
    .inl ⟨⟨h, [], rfl⟩, rfl⟩
  refine (scanned_iff.1 (.reference hspells ?_)).symm
  rw [List.drop_of_length_le (by simp)]
  exact .nil

theorem isBracedName_of_isBareName (topScope : Bool) (h : IsBareName name) :
    IsBracedName (inScope topScope name) := by
  have hparts := part_of_isBareName h
  cases topScope with
  | false =>
      cases name with
      | nil => exact (not_isBareName_nil h).elim
      | cons c more =>
          refine ⟨c, more, rfl, ?_, (List.forall_mem_cons.1 hparts).2⟩
          rw [(isBareName_cons.1 h).1]
          rfl
  | true => exact ⟨':', ':' :: name, rfl, by decide, List.forall_mem_cons.2 ⟨by decide, hparts⟩⟩

/-- A variable is one token, in the top scope or not.  Between double quotes it is the variable of
the literal just if it is not in the top scope; with its name in braces it always is. -/
theorem variable_read (multiline topScope : Bool) (offset : Int) (h : IsBareName name) :
    (∃ token, (TokenStream.lex multiline ('$' :: inScope topScope name)).tokens = [token] ∧
      token.kind = .variable ∧
      token.text ('$' :: inScope topScope name) = '$' :: inScope topScope name) ∧
    (Node.string offset ('"' :: ('$' :: inScope topScope name) ++ ['"'])).children =
      (if topScope then [] else
        [.leaf (offset + 1)
          (.variable ('$' :: inScope topScope name) ('$' :: inScope topScope name).length)]) ∧
    (Node.string offset
        ('"' :: ('$' :: '\x7b' :: inScope topScope name ++ ['\x7d']) ++ ['"'])).children =
      [.leaf (offset + 1)
        (.variable ('$' :: inScope topScope name)
          ('$' :: '\x7b' :: inScope topScope name ++ ['\x7d']).length)] := by
  refine ⟨?_, ?_, ?_⟩
  · obtain ⟨token, htokens, hkind⟩ :=
      TokenStream.lex_variable multiline (Symbol.isVariableName_of_isBareName topScope h)
    obtain ⟨-, -, -, -, -, htext⟩ :=
      TokenStream.lex_complete multiline ('$' :: inScope topScope name)
    rw [htokens, List.flatMap_singleton] at htext
    exact ⟨token, htokens, hkind, htext⟩
  · rw [Node.children_string]
    cases topScope with
    | false =>
        rw [show inScope false name = name from rfl, findAll_bare h]
        simp [Node.ofReference]
    | true =>
        rw [findAll_topScope h]
        rfl
  · rw [Node.children_string, findAll_braced (isBracedName_of_isBareName topScope h)]
    simp [Node.ofReference, Int.add_assoc]

def qualifiedName : List Char :=
  "ab::_c1".toList

theorem variable_read_qualifiedName :
    IsBareName qualifiedName ∧
    (∃ token, (TokenStream.lex false "$::ab::_c1".toList).tokens = [token] ∧
      token.kind = .variable) ∧
    (Node.string 3 "\"$ab::_c1\"".toList).children =
      [.leaf 4 (.variable "$ab::_c1".toList 8)] ∧
    (Node.string 3 "\"$\x7b::ab::_c1\x7d\"".toList).children =
      [.leaf 4 (.variable "$::ab::_c1".toList 12)] := by
  have hfirst : IsSegment "ab".toList := ⟨'a', ['b'], rfl, by decide, by simp [isNamePart]⟩
  have hsecond : IsSegment "_c1".toList := ⟨'_', ['c', '1'], rfl, by decide, by simp [isNamePart]⟩
  have hname : IsBareName qualifiedName :=
    ⟨["ab".toList, "_c1".toList], by decide,
      List.forall_mem_cons.2 ⟨hfirst, List.forall_mem_singleton.2 hsecond⟩, by decide⟩
  obtain ⟨⟨token, htokens, hkind, -⟩, -, hbraced⟩ := variable_read false true 3 hname
  obtain ⟨-, hbare, -⟩ := variable_read false false 3 hname
  exact ⟨hname, ⟨token, htokens, hkind⟩, hbare, hbraced⟩

/-- A variable in the top scope is a token, but not a variable of the literal. -/
theorem topScope_variable_missed :
    IsBareName ['a'] ∧
    (∃ token, (TokenStream.lex false "$::a".toList).tokens = [token] ∧ token.kind = .variable) ∧
    (Node.string 0 "\"$::a\"".toList).children ≠ [.leaf 1 (.variable "$::a".toList 4)] ∧
    (Node.string 0 "\"$::a\"".toList).children = [] ∧
    (Node.string 0 "\"$\x7b::a\x7d\"".toList).children = [.leaf 1 (.variable "$::a".toList 6)] := by
  have hfound : findAll "$::a".toList = [] ∧
      findAll "$\x7b::a\x7d".toList = [⟨"::a".toList, 0, 6⟩] := by
    decide +kernel
  have hmissed : (Node.string 0 "\"$::a\"".toList).children = [] :=
    (Node.children_string 0 "$::a".toList).trans (by rw [hfound.1]; rfl)
  have hkinds : (TokenStream.lex false "$::a".toList).tokens.map Token.kind = [.variable] := by
    decide +kernel
  obtain ⟨token, htokens, hkind⟩ := List.map_eq_singleton_iff.1 hkinds
  refine ⟨⟨[['a']], by decide, ?_, by decide⟩, ⟨token, htokens, hkind⟩, ?_, hmissed, ?_⟩
  · exact List.forall_mem_singleton.2 ⟨'a', [], rfl, by decide, List.forall_mem_nil _⟩
  · rw [hmissed]
    exact nofun
  · exact (Node.children_string 0 "$\x7b::a\x7d".toList).trans (by rw [hfound.2]; rfl)

end Reference

end Manifest
