import Mathlib.Data.List.TakeWhile
import Manifest.Proofs.Lexing.Significant
import Manifest.Proofs.Parallel.TopLevel
import Manifest.Proofs.Tree.Remapped

/-!
# Blanks do not matter

Texts with the same significant tokens are read alike, whatever blanks and comments stand
between them, as long as none stand where none stood.
-/

namespace Manifest

namespace Token

/-- Whether blanks stand before the first significant token, between each two neighbours, and
after the last one. -/
def gaps : List Token → List Bool
  | [] => [false]
  | token :: tokens => if token.isTrivia then true :: (gaps tokens).tail else false :: gaps tokens

/-- Significant tokens of two rows with the same index among the significant ones. -/
def Counterparts (tokens mates : List Token) (token mate : Token) : Prop :=
  ∃ index : Nat, (significant tokens)[index]? = some token ∧
    (significant mates)[index]? = some mate

end Token

/-- Two texts have the same significant tokens by kind and text, and have blanks between the
same ones. -/
structure TokenStream.SameButBlanks (multiline : Bool) (left right : List Char) : Prop where
  significant :
    (Token.significant (lex multiline left).tokens).map
        (fun token => (token.kind, token.text left)) =
      (Token.significant (lex multiline right).tokens).map
        fun token => (token.kind, token.text right)
  gaps : Token.gaps (lex multiline left).tokens = Token.gaps (lex multiline right).tokens

/-- Reports of the same finding, at significant tokens of the same index or both at the end. -/
structure Diagnostic.Corresponds (multiline : Bool) (left right : List Char)
    (diagnostic other : Diagnostic) : Prop where
  finding : other.finding = diagnostic.finding
  message : other.message = diagnostic.message
  range :
    (∃ token mate, Token.Counterparts (TokenStream.lex multiline left).tokens
        (TokenStream.lex multiline right).tokens token mate ∧
      diagnostic.range = token.range ∧ other.range = mate.range) ∨
    diagnostic.range = TextRange.empty left.length ∧ other.range = TextRange.empty right.length

/-! ## Gaps -/

namespace Token

variable {token : Token} {tokens mates : List Token}

theorem gaps_cons_of_trivia (h : token.isTrivia = true) :
    gaps (token :: tokens) = true :: (gaps tokens).tail := by
  rw [gaps, if_pos h]

theorem gaps_cons (h : token.isTrivia = false) :
    gaps (token :: tokens) = false :: gaps tokens := by
  rw [gaps, if_neg (by simp [h])]

/-- Without its blanks, the first gap is empty. -/
theorem gaps_dropWhile (tokens : List Token) :
    gaps (tokens.dropWhile isTrivia) = false :: (gaps tokens).tail := by
  induction tokens with
  | nil => rfl
  | cons token tokens ih =>
      cases htoken : token.isTrivia with
      | true =>
          rw [List.dropWhile_cons_of_pos htoken, gaps_cons_of_trivia htoken, ih]
          rfl
      | false =>
          rw [List.dropWhile_cons_of_neg (by simp [htoken]), gaps_cons htoken]
          rfl

theorem of_gaps_true {flags : List Bool} (h : gaps tokens = true :: flags) :
    ∃ token rest, tokens = token :: rest ∧ token.isTrivia = true := by
  cases tokens with
  | nil => cases h
  | cons token rest =>
      cases htoken : token.isTrivia with
      | true => exact ⟨token, rest, rfl, htoken⟩
      | false =>
          rw [gaps_cons htoken] at h
          cases h

theorem of_gaps_false {flags : List Bool} (h : gaps tokens = false :: flags) :
    tokens = [] ∨ ∃ token rest, tokens = token :: rest ∧ token.isTrivia = false ∧
      gaps rest = flags := by
  cases tokens with
  | nil => exact .inl rfl
  | cons token rest =>
      cases htoken : token.isTrivia with
      | true =>
          rw [gaps_cons_of_trivia htoken] at h
          cases h
      | false =>
          rw [gaps_cons htoken] at h
          exact .inr ⟨token, rest, rfl, htoken, (List.cons.inj h).2⟩

theorem index_eq_iff (h : tokens.Pairwise fun first second => first.offset < second.offset)
    {index other : Nat} {first second : Token} (hfirst : (significant tokens)[index]? = some first)
    (hsecond : (significant tokens)[other]? = some second) :
    first.offset = second.offset ↔ index = other := by
  have hpairwise : (significant tokens).Pairwise fun first second => first.offset < second.offset :=
    h.filter _
  obtain ⟨hindex, rfl⟩ := List.getElem?_eq_some_iff.1 hfirst
  obtain ⟨hother, rfl⟩ := List.getElem?_eq_some_iff.1 hsecond
  rw [List.pairwise_iff_getElem] at hpairwise
  rcases Nat.lt_trichotomy index other with hless | rfl | hless
  · have := hpairwise index other hindex hother hless
    omega
  · simp
  · have := hpairwise other index hother hindex hless
    omega

end Token

namespace Parallel

variable {p : Parallel} {token mate : Token} {tokens mates : List Token}

theorem Row.blanks (htoken : token.isTrivia = true) (hmate : mate.isTrivia = true)
    (hplaces : p.places token.offset mate.offset)
    (rest : p.Row (tokens.dropWhile Token.isTrivia) (mates.dropWhile Token.isTrivia)) :
    p.Row (token :: tokens) (mate :: mates) := by
  have hgap : ∀ {tokens : List Token}, ∀ blank ∈ tokens.takeWhile Token.isTrivia,
      blank.isTrivia = true := fun _ => List.mem_takeWhile_imp
  have hrow := Row.blank htoken hmate hplaces (@hgap tokens) (@hgap mates) rest
  rwa [List.takeWhile_append_dropWhile, List.takeWhile_append_dropWhile] at hrow

/-- Significant tokens that stand for one another, with blanks between the same ones, make a
row. -/
theorem row_of_gaps (hplaces : ∀ offset offset', p.places offset offset') (hbeyond : p.beyond = [])
    (hsignificant : List.Forall₂ p.tokens (Token.significant tokens) (Token.significant mates))
    (hgaps : Token.gaps tokens = Token.gaps mates) : p.Row tokens mates := by
  -- a gap is passed over as a whole, so the induction is on the number of tokens
  induction hlength : tokens.length using Nat.strongRecOn generalizing tokens mates with
  | ind length ih =>
      subst hlength
      cases tokens with
      | nil =>
          rcases Token.of_gaps_false hgaps.symm with rfl | ⟨mate, rest, rfl, hmate, -⟩
          · exact .ended hbeyond.symm
          · rw [Token.significant_cons hmate] at hsignificant
            cases hsignificant
      | cons token tokens =>
          cases htoken : token.isTrivia with
          | false =>
              rw [Token.significant_cons htoken] at hsignificant
              rw [Token.gaps_cons htoken] at hgaps
              rcases Token.of_gaps_false hgaps.symm with rfl | ⟨mate, rest, rfl, hmate, hrest⟩
              · cases hsignificant
              · rw [Token.significant_cons hmate] at hsignificant
                obtain ⟨hfirst, hothers⟩ := List.forall₂_cons.1 hsignificant
                exact .token hfirst (ih _ (Nat.lt_succ_self _) hothers hrest.symm rfl)
          | true =>
              have hfilled := hgaps
              rw [Token.gaps_cons_of_trivia htoken] at hfilled
              obtain ⟨mate, rest, rfl, hmate⟩ := Token.of_gaps_true hfilled.symm
              rw [Token.significant_cons_of_trivia htoken, Token.significant_cons_of_trivia hmate,
                ← Token.significant_dropWhile tokens,
                ← Token.significant_dropWhile rest] at hsignificant
              rw [Token.gaps_cons_of_trivia htoken, Token.gaps_cons_of_trivia hmate] at hgaps
              have hdropped : Token.gaps (tokens.dropWhile Token.isTrivia) =
                  Token.gaps (rest.dropWhile Token.isTrivia) := by
                rw [Token.gaps_dropWhile, Token.gaps_dropWhile, (List.cons.inj hgaps).2]
              have hfewer : (tokens.dropWhile Token.isTrivia).length < (token :: tokens).length :=
                Nat.lt_succ_of_le (List.dropWhile_sublist Token.isTrivia).length_le
              exact .blanks htoken hmate (hplaces _ _) (ih _ hfewer hsignificant hdropped rfl)

/-- Texts that are the same but for blanks: trees are compared wherever they stand, and reports
by the tokens that they are at. -/
def sameButBlanks (multiline : Bool) (left right : List Char) : Parallel where
  left := left
  right := right
  beyond := []
  places := fun _ _ => True
  tokens := Token.Counterparts (TokenStream.lex multiline left).tokens
    (TokenStream.lex multiline right).tokens
  nodes := fun node other => node.forgetPlaces = other.forgetPlaces
  reports := List.Forall₂ (Diagnostic.Corresponds multiline left right)

end Parallel

/-! ## Reports -/

section Reports

variable {multiline : Bool} {left right : List Char} {token mate : Token}

theorem TokenStream.pairwise_lex (multiline : Bool) (source : List Char) :
    (lex multiline source).tokens.Pairwise fun first second => first.offset < second.offset :=
  (tiles_lex multiline source).1.pairwise_offset fun token htoken =>
    (lex_between multiline source token htoken).1

theorem TokenStream.offset_lt_length {source : List Char}
    (h : token ∈ (lex multiline source).tokens) : token.offset < source.length :=
  have hbetween := lex_between multiline source token h
  Nat.lt_of_lt_of_le hbetween.1 hbetween.2

theorem Token.Counterparts.mem {tokens mates : List Token}
    (h : Counterparts tokens mates token mate) :
    token ∈ significant tokens ∧ mate ∈ significant mates := by
  obtain ⟨index, htoken, hmate⟩ := h
  exact ⟨List.mem_of_getElem? htoken, List.mem_of_getElem? hmate⟩

namespace Diagnostic.Corresponds

variable {diagnostic other diagnostic' other' : Diagnostic}

theorem start_eq_iff (h : Corresponds multiline left right diagnostic other)
    (h' : Corresponds multiline left right diagnostic' other') :
    diagnostic.start = diagnostic'.start ↔ other.start = other'.start := by
  have hat : ∀ {token mate : Token}, Token.Counterparts (TokenStream.lex multiline left).tokens
      (TokenStream.lex multiline right).tokens token mate →
      token.offset < left.length ∧ mate.offset < right.length := fun hmates =>
    ⟨TokenStream.offset_lt_length (List.mem_of_mem_filter hmates.mem.1),
      TokenStream.offset_lt_length (List.mem_of_mem_filter hmates.mem.2)⟩
  unfold start
  rcases h.range with ⟨token, mate, hmates, hrange, hother⟩ | ⟨hrange, hother⟩ <;>
    rcases h'.range with ⟨token', mate', hmates', hrange', hother'⟩ | ⟨hrange', hother'⟩ <;>
    rw [hrange, hother, hrange', hother']
  · obtain ⟨index, htoken, hmate⟩ := hmates
    obtain ⟨index', htoken', hmate'⟩ := hmates'
    exact (Token.index_eq_iff (TokenStream.pairwise_lex multiline left) htoken htoken').trans
      (Token.index_eq_iff (TokenStream.pairwise_lex multiline right) hmate hmate').symm
  · exact iff_of_false (hat hmates).1.ne (hat hmates).2.ne
  · exact iff_of_false (hat hmates').1.ne' (hat hmates').2.ne'
  · exact iff_of_true rfl rfl

/-- A report is dropped on both sides or on none. -/
theorem record {state state' : ParseState}
    (h : Corresponds multiline left right diagnostic other)
    (hreported : List.Forall₂ (Corresponds multiline left right) state.reported state'.reported) :
    List.Forall₂ (Corresponds multiline left right) (state.record diagnostic).reported
      (state'.record other).reported := by
  obtain ⟨cursor, reported⟩ := state
  obtain ⟨cursor', reported'⟩ := state'
  unfold ParseState.record
  cases hreported with
  | nil => exact .cons h .nil
  | @cons last last' _ _ hlast hrest =>
      dsimp only
      by_cases hstart : last.start = diagnostic.start
      · rw [if_pos hstart, if_pos ((start_eq_iff hlast h).1 hstart)]
        exact .cons hlast hrest
      · rw [if_neg hstart, if_neg fun hother => hstart ((start_eq_iff hlast h).2 hother)]
        exact .cons h (.cons hlast hrest)

end Diagnostic.Corresponds

end Reports

/-! ## Trees and reports of texts that are the same but for blanks -/

namespace Parallel

variable {multiline : Bool} {left right : List Char} {token mate : Token}

theorem spelled_of_counterparts (h : TokenStream.SameButBlanks multiline left right)
    (hmates : (sameButBlanks multiline left right).tokens token mate) :
    mate.kind = token.kind ∧ mate.text right = token.text left := by
  obtain ⟨index, htoken, hmate⟩ := hmates
  have hindex := congrArg (fun spelled => spelled[index]?) h.significant
  rw [List.getElem?_map, List.getElem?_map, htoken, hmate] at hindex
  exact Prod.mk.inj (Option.some.inj hindex).symm

theorem remaps_sameButBlanks (h : TokenStream.SameButBlanks multiline left right) :
    (sameButBlanks multiline left right).Remaps (fun _ => 0) (fun _ => 0)
      (fun _ => []) (fun _ => []) where
  nodes := Iff.rfl
  places := fun _ _ => rfl
  offset := fun _ => trivial
  text := fun hmates => (spelled_of_counterparts h hmates).2
  types := fun _ => rfl

theorem lawful_sameButBlanks (h : TokenStream.SameButBlanks multiline left right) :
    (sameButBlanks multiline left right).Lawful where
  builds := (remaps_sameButBlanks h).builds
  kind := fun hmates => (spelled_of_counterparts h hmates).1
  text := fun hmates => (spelled_of_counterparts h hmates).2
  significant := fun hmates => Token.isTrivia_of_mem_significant hmates.mem.1
  offset := fun _ => trivial
  offsetAfter := fun _ => trivial
  stop := fun _ => trivial
  min := fun _ _ => trivial
  max := fun _ _ => trivial
  length := fun _ => trivial
  report := fun _ hmates hreports =>
    Diagnostic.Corresponds.record ⟨rfl, rfl, .inl ⟨_, _, hmates, rfl, rfl⟩⟩ hreports
  reportEnd := fun _ _ hreports =>
    Diagnostic.Corresponds.record ⟨rfl, rfl, .inr ⟨rfl, rfl⟩⟩ hreports

theorem row_sameButBlanks (h : TokenStream.SameButBlanks multiline left right) :
    (sameButBlanks multiline left right).Row (TokenStream.lex multiline left).tokens
      (TokenStream.lex multiline right).tokens := by
  refine row_of_gaps (fun _ _ => trivial) rfl ?_ h.gaps
  have hlength := congrArg List.length h.significant
  rw [List.length_map, List.length_map] at hlength
  refine List.forall₂_iff_get.2 ⟨hlength, fun index hindex hindex' => ⟨index, ?_, ?_⟩⟩
  · exact List.getElem?_eq_getElem hindex
  · exact List.getElem?_eq_getElem hindex'

end Parallel

namespace Parsed

variable {options : ParseOptions} {left right : List Char}

/-- Blanks and comments do not matter: texts that are the same but for them have the same tree,
wherever its nodes stand, and the same reports of the parser at the same tokens. -/
theorem ofText_sameButBlanks (interruption : Interruption)
    (h : TokenStream.SameButBlanks options.multiline left right) :
    (ofText options interruption left).root.forgetPlaces =
        (ofText options interruption right).root.forgetPlaces ∧
      List.Forall₂ (Diagnostic.Corresponds options.multiline left right)
        (read options interruption left).state.diagnostics
        (read options interruption right).state.diagnostics := by
  obtain ⟨hnodes, hreports⟩ := TopLevel.related_readAll (Parallel.lawful_sameButBlanks h) rfl
    (Parallel.row_sameButBlanks h) .nil options.reportGap interruption
  refine ⟨?_, List.rel_reverse hreports⟩
  unfold Node.forgetPlaces ofText ofStream TopLevel.root
  rw [Node.remap_mk, Node.remap_mk]
  exact congrArg (Node.mk 0 (some 0) (.element .root))
    ((Parallel.remaps_sameButBlanks h).map_eq hnodes)

/-- A statement that is no declaration, and a class that ends within a resource. -/
def spaced : List Char :=
  "include b class a(String $x = 1) \x7b file \x7b 'c'".toList

def commented : List Char :=
  "include\tb /* d */ class\n\na(String  $x\n= 1) # e\n\x7b file\n\x7b  'c'".toList

theorem ofText_sameButBlanks_commented :
    TokenStream.SameButBlanks ParseOptions.standard.multiline spaced commented ∧
      ((ofText .standard .never spaced).root.forgetPlaces =
          (ofText .standard .never commented).root.forgetPlaces ∧
        List.Forall₂ (Diagnostic.Corresponds ParseOptions.standard.multiline spaced commented)
          (read .standard .never spaced).state.diagnostics
          (read .standard .never commented).state.diagnostics) ∧
      (read .standard .never spaced).state.diagnostics.map Diagnostic.finding =
        [.unsupportedTopLevelStatement, .missingTitleColon] := by
  have hsame : TokenStream.SameButBlanks ParseOptions.standard.multiline spaced commented :=
    ⟨by decide +kernel, by decide +kernel⟩
  exact ⟨hsame, ofText_sameButBlanks .never hsame, by decide +kernel⟩

end Parsed

end Manifest
