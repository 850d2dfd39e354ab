import Manifest.Parse.Requirement
import Manifest.Proofs.Lexing.Significant
import Manifest.Proofs.Parallel.Basic
import Manifest.Proofs.Parsing.Requirements
import Manifest.Tree.View

/-!
# Variables and strings in a row of tokens

What a variable or a string stands for depends on the tokens around it: an equals sign behind a
variable makes a definition of it, and `Class` with brackets around a single string names a
class.  The tokens are read once, from the first to the last; of those before a token no more
has to be known than how far they come to such a reference.
-/

namespace Manifest

/-- How far some tokens come to the string of a class reference. -/
inductive Lead where
  | other
  /-- The last token is a dot; a name right behind it is called as a method. -/
  | dot
  /-- The last token is the name `Class`, but for blanks. -/
  | word
  /-- The last token is the bracket behind that name, but for blanks. -/
  | bracket
  deriving DecidableEq, Repr

namespace Lead

def after (source : List Char) (lead : Lead) (token : Token) : Lead :=
  match token.kind with
  | .dot => .dot
  | .identifier => if lead ≠ .dot ∧ token.text source = classTypeName then .word else .other
  | .leftBracket => if lead = .word then .bracket else .other
  | kind => if kind.isTrivia ∧ lead ≠ .dot then lead else .other

/-- The tokens that stand for something, or may lead to one that does; brackets lead on only
behind these. -/
def tellingKinds : List TokenKind :=
  [.variable, .string, .dot, .identifier]

def upcoming? (tokens : List Token) : Option TokenKind :=
  (Token.significant tokens).head?.map Token.kind

/-- What a token stands for where `behind` follow it: a variable or its definition, a string or
a reference to a class. -/
def mention? (source : List Char) (lead : Lead) (token : Token) (behind : List Token) :
    Option Node :=
  match token.kind with
  | .variable =>
      if upcoming? behind = some .equals then
        some (Node.plainDefinition token.offset (token.text source))
      else
        some (Node.plainVariable token.offset (token.text source))
  | .string =>
      if lead = .bracket ∧ upcoming? behind = some .rightBracket then
        some (ParseState.quotedClassRef source token)
      else
        some (Node.string token.offset (token.text source))
  | _ => none

/-- What the variables and strings of a run stand for where `behind` follow it. -/
def mentions (source : List Char) (behind : List Token) : Lead → List Token → List Node
  | _, [] => []
  | lead, token :: run =>
      (lead.mention? source token (run ++ behind)).toList ++
        mentions source behind (lead.after source token) run

variable {source : List Char} {lead : Lead} {token : Token} {run tokens behind : List Token}

/-! ## Single tokens -/

theorem after_of_isTrivia (h : token.isTrivia = true) (hdot : lead ≠ .dot) :
    lead.after source token = lead := by
  unfold Token.isTrivia at h
  unfold after
  split <;> rename_i hkind
  · rw [hkind] at h
    cases h
  · rw [hkind] at h
    cases h
  · rw [hkind] at h
    cases h
  · exact if_pos ⟨h, hdot⟩

/-- Behind a significant token it matters only whether it is the bracket behind `Class`, or a
name behind a dot. -/
theorem after_eq_after_other (h : token.isTrivia = false)
    (hdot : token.kind = .identifier → lead ≠ .dot)
    (hbracket : token.kind = .leftBracket → lead ≠ .word) :
    lead.after source token = Lead.other.after source token := by
  unfold Token.isTrivia at h
  unfold after
  split <;> rename_i hkind
  · rfl
  · simp [hdot hkind]
  · simp [hbracket hkind]
  · simp [h]

theorem after_other_eq_other (h : token.kind ≠ .dot) (h' : token.kind ≠ .identifier) :
    Lead.other.after source token = .other := by
  unfold after
  split
  · rename_i hkind
    exact (h hkind).elim
  · rename_i hkind
    exact (h' hkind).elim
  · rfl
  · exact ite_self Lead.other

theorem after_word (h : token.kind = .leftBracket) : Lead.word.after source token = .bracket := by
  unfold after
  rw [h]
  rfl

theorem after_dot (h : token.kind ≠ .dot) : Lead.dot.after source token = .other := by
  unfold after
  split
  · rename_i hdot
    exact (h hdot).elim
  · simp
  · rfl
  · simp

theorem mention?_eq_none (h : token.kind ≠ .variable) (h' : token.kind ≠ .string) :
    lead.mention? source token behind = none := by
  unfold mention?
  split
  · rename_i hkind
    exact (h hkind).elim
  · rename_i hkind
    exact (h' hkind).elim
  · rfl

theorem mention?_of_isTrivia (h : token.isTrivia = true) :
    lead.mention? source token behind = none := by
  unfold Token.isTrivia at h
  refine mention?_eq_none ?_ ?_ <;> intro hkind <;> rw [hkind] at h <;> cases h

theorem mention?_eq_mention?_other
    (h : token.kind = .string → lead = .bracket → upcoming? behind ≠ some .rightBracket) :
    lead.mention? source token behind = Lead.other.mention? source token behind := by
  unfold mention?
  split
  · rfl
  · rename_i hkind
    rw [if_neg (fun hindex => h hkind hindex.1 hindex.2)]
    rfl
  · rfl

theorem not_telling_of_isTrivia (h : token.isTrivia = true) : token.kind ∉ tellingKinds := by
  unfold Token.isTrivia TokenKind.isTrivia at h
  split at h <;> rename_i hkind
  · rw [hkind]
    decide
  · rw [hkind]
    decide
  · rw [hkind]
    decide
  · cases h

/-! ## Rows of tokens -/

theorem mentions_append (source : List Char) (lead : Lead) (run tokens behind : List Token) :
    lead.mentions source behind (run ++ tokens) =
      lead.mentions source (tokens ++ behind) run ++
        (run.foldl (after source) lead).mentions source behind tokens := by
  induction run generalizing lead with
  | nil => rfl
  | cons token run ih =>
      rw [List.cons_append, mentions, mentions, ih, List.append_assoc, List.append_assoc,
        List.foldl_cons]

/-- Blanks after a token that is no dot change nothing. -/
theorem mentions_dropWhile (hdot : lead ≠ .dot) (tokens behind : List Token) :
    lead.mentions source behind (tokens.dropWhile Token.isTrivia) =
      lead.mentions source behind tokens := by
  induction tokens with
  | nil => rfl
  | cons token tokens ih =>
      cases htoken : token.isTrivia with
      | true =>
          rw [List.dropWhile_cons_of_pos htoken, ih, mentions, mention?_of_isTrivia htoken,
            after_of_isTrivia htoken hdot]
          rfl
      | false => rw [List.dropWhile_cons_of_neg (by simp [htoken])]

/-- Where the next token does not go on with a class reference, what is before it does not
matter. -/
theorem mentions_eq_mentions_other (hdot : lead ≠ .dot)
    (h : ∀ token rest, tokens.dropWhile Token.isTrivia = token :: rest →
      (token.kind = .leftBracket → lead ≠ .word) ∧
      (token.kind = .string → lead = .bracket →
        upcoming? (rest ++ behind) ≠ some .rightBracket)) :
    lead.mentions source behind tokens = Lead.other.mentions source behind tokens := by
  rw [← mentions_dropWhile hdot, ← mentions_dropWhile (show Lead.other ≠ .dot by decide)]
  have hhead := List.head?_dropWhile_not Token.isTrivia tokens
  cases hrest : tokens.dropWhile Token.isTrivia with
  | nil => rfl
  | cons token rest =>
      rw [hrest] at hhead
      have htoken : token.isTrivia = false := by simpa using hhead
      obtain ⟨hbracket, hstring⟩ := h token rest hrest
      rw [mentions, mentions, mention?_eq_mention?_other hstring,
        after_eq_after_other htoken (fun _ => hdot) hbracket]

/-- Only a name right behind a dot is not read like one without it. -/
theorem mentions_dot (h : ∀ token, tokens.head? = some token → token.kind ≠ .identifier) :
    Lead.dot.mentions source behind tokens = Lead.other.mentions source behind tokens := by
  cases tokens with
  | nil => rfl
  | cons token rest =>
      have hmention : Lead.dot.mention? source token (rest ++ behind) =
          Lead.other.mention? source token (rest ++ behind) :=
        mention?_eq_mention?_other (by intro _ hlead; cases hlead)
      have hafter : Lead.dot.after source token = Lead.other.after source token := by
        unfold after
        split <;> rename_i hkind
        · rfl
        · exact (h token rfl hkind).elim
        · rfl
        · simp
      rw [mentions, mentions, hmention, hafter]

end Lead

/-! ## Mentions in a tree -/

namespace Node

/-- Whether a node stands for a variable or a string. -/
def isMention (node : Node) : Bool :=
  [ElementKind.variable, .variableDefinition, .string, .classRef].contains node.kind

/-- What walking some trees meets of variables and strings. -/
def gathered (nodes : List Node) : List Node :=
  (walkAll nodes).filter isMention

def interpolations (node : Node) : List Node :=
  match node.form with
  | .string _ => node.children
  | _ => []

variable {node : Node} {nodes : List Node}

theorem walkAll_append (nodes more : List Node) :
    walkAll (nodes ++ more) = walkAll nodes ++ walkAll more := by
  induction nodes with
  | nil => rfl
  | cons node nodes ih => rw [List.cons_append, walkAll, walkAll, ih, List.append_assoc]

theorem gathered_append (nodes more : List Node) :
    gathered (nodes ++ more) = gathered nodes ++ gathered more := by
  unfold gathered
  rw [walkAll_append, List.filter_append]

theorem gathered_singleton (node : Node) : gathered [node] = node.walk.filter isMention := by
  unfold gathered
  rw [walkAll, walkAll, List.append_nil]

theorem gathered_of_not_isMention (h : node.isMention = false) :
    gathered [node] = gathered node.children := by
  cases node
  rw [gathered_singleton, walk, List.filter_cons_of_neg (by simp [h])]
  rfl

theorem gathered_of_isMention (h : node.isMention = true) :
    gathered [node] = node :: gathered node.children := by
  cases node
  rw [gathered_singleton, walk, List.filter_cons_of_pos h]
  rfl

theorem gathered_of_leaves (h : ∀ node ∈ nodes, node.isMention = true ∧ node.children = []) :
    gathered nodes = nodes := by
  induction nodes with
  | nil => rfl
  | cons node nodes ih =>
      obtain ⟨hmention, hleaf⟩ := h node List.mem_cons_self
      rw [← List.singleton_append, gathered_append, gathered_of_isMention hmention, hleaf,
        ih fun other hother => h other (List.mem_cons_of_mem _ hother)]
      rfl

end Node

/-! ## Tokens and their mentions -/

namespace Token

def isMention (token : Token) : Bool :=
  token.kind == .variable || token.kind == .string

/-- A node that stands for a token: a variable or its definition takes just the token, and so
does a string; a reference to a class begins with it. -/
structure TakenAs (token : Token) (node : Node) : Prop where
  offset : node.offset = token.offset
  ofVariable : token.kind = .variable →
    (node.kind = .variable ∨ node.kind = .variableDefinition) ∧ node.endOffset = token.stop
  ofString : token.kind = .string →
    node.kind = .string ∧ node.endOffset = token.stop ∨
      node.kind = .classRef ∧ node.endOffset ≤ token.stop

end Token

namespace Lead

variable {source : List Char} {lead : Lead} {token : Token} {run tokens behind : List Token}
  {node : Node} {nodes : List Node}

theorem takenAs_of_mention? (hcovers : token.Covers source) (hstop : token.stop ≤ source.length)
    (h : lead.mention? source token behind = some node) : token.TakenAs node := by
  have hlength := hcovers.length_text hstop
  have hless := hcovers.offset_lt
  have hleaf : (token.offset : Int) + ((token.text source).length : Int) = token.stop := by omega
  unfold mention? at h
  split at h
  · rename_i hkind
    split at h <;> obtain rfl := Option.some.inj h
    · exact ⟨rfl, fun _ => ⟨.inr rfl, hleaf⟩, fun hstring => nomatch hkind.symm.trans hstring⟩
    · exact ⟨rfl, fun _ => ⟨.inl rfl, hleaf⟩, fun hstring => nomatch hkind.symm.trans hstring⟩
  · rename_i hkind
    split at h <;> obtain rfl := Option.some.inj h
    · refine ⟨rfl, fun hvariable => (nomatch hkind.symm.trans hvariable),
        fun _ => .inr ⟨rfl, ?_⟩⟩
      have hunquoted := ParseState.length_unquote_lt (List.length_pos_iff.1 (by omega) :
        token.text source ≠ [])
      exact (Node.fits_classRef (by omega) (by omega)).2.2
    · refine ⟨rfl, fun hvariable => (nomatch hkind.symm.trans hvariable),
        fun _ => .inl ⟨rfl, Int.le_antisymm ?_ ?_⟩⟩
      · rw [← hleaf]
        exact (Node.fits_string _ _).2.2
      · rw [← hleaf]
        exact Node.leastEnd_le_endOffset _
  · cases h

/-- Each variable and each string of a run is mentioned once, in their order. -/
theorem forall₂_mentions (lead : Lead)
    (h : ∀ token ∈ run, token.Covers source ∧ token.stop ≤ source.length) :
    List.Forall₂ Token.TakenAs (run.filter Token.isMention) (lead.mentions source behind run) := by
  induction run generalizing lead with
  | nil => exact .nil
  | cons token run ih =>
      obtain ⟨⟨hcovers, hstop⟩, hrun⟩ := List.forall_mem_cons.1 h
      have hrest := ih (lead.after source token) hrun
      rw [mentions]
      cases hmention : lead.mention? source token (run ++ behind) with
      | some node =>
          have htoken : token.isMention = true := by
            by_contra hnone
            have hkinds : ¬ token.kind = .variable ∧ ¬ token.kind = .string := by
              simpa [Token.isMention] using hnone
            rw [mention?_eq_none hkinds.1 hkinds.2] at hmention
            cases hmention
          rw [List.filter_cons_of_pos htoken]
          exact .cons (takenAs_of_mention? hcovers hstop hmention) hrest
      | none =>
          have htoken : ¬ token.isMention = true := by
            intro hsome
            unfold mention? at hmention
            rcases (by simpa [Token.isMention] using hsome :
              token.kind = .variable ∨ token.kind = .string) with hkind | hkind <;>
            · rw [hkind] at hmention
              dsimp only at hmention
              split at hmention <;> cases hmention
          rw [List.filter_cons_of_neg htoken]
          exact hrest

theorem pairwise_of_forall₂ (h : List.Forall₂ Token.TakenAs tokens nodes)
    (htokens : tokens.Pairwise fun first second => first.offset < second.offset) :
    nodes.Pairwise fun first second => first.offset < second.offset := by
  have hoffsets : nodes.map Node.offset = tokens.map fun token => (token.offset : Int) := by
    induction h with
    | nil => rfl
    | cons htaken _ ih =>
        rw [List.map_cons, List.map_cons, htaken.offset, ih (List.pairwise_cons.1 htokens).2]
  have hordered : (nodes.map Node.offset).Pairwise fun first second => first < second := by
    rw [hoffsets, List.pairwise_map]
    exact htokens.imp Int.ofNat_lt.2
  exact List.pairwise_map.1 hordered

/-- Of what a token stands for, it is gathered first, and then what is interpolated in it. -/
theorem gathered_of_mention? (h : lead.mention? source token behind = some node) :
    Node.gathered [node] = node :: node.interpolations := by
  unfold mention? at h
  split at h
  · split at h <;> obtain rfl := Option.some.inj h
    · rfl
    · rfl
  · split at h <;> obtain rfl := Option.some.inj h
    · rfl
    · rw [Node.gathered_of_isMention rfl, Node.gathered_of_leaves]
      · rfl
      · intro inner hinner
        replace hinner : inner ∈ Node.interpolated token.offset (token.text source) := hinner
        unfold Node.interpolated at hinner
        split at hinner
        · obtain ⟨reference, -, rfl⟩ := List.mem_map.1 hinner
          exact ⟨rfl, rfl⟩
        · cases hinner
  · cases h

theorem gathered_mentions (source : List Char) (behind : List Token) (lead : Lead)
    (run : List Token) :
    Node.gathered (lead.mentions source behind run) =
      (lead.mentions source behind run).flatMap fun node => node :: node.interpolations := by
  induction run generalizing lead with
  | nil => rfl
  | cons token run ih =>
      rw [mentions, Node.gathered_append, List.flatMap_append, ih]
      cases hmention : lead.mention? source token (run ++ behind) with
      | some node =>
          rw [Option.toList_some, gathered_of_mention? hmention, List.flatMap_singleton]
      | none => rfl

end Lead

/-! ## Mentions ahead of a state -/

namespace ParseState

def mentions (source : List Char) (state : ParseState) : List Node :=
  Lead.other.mentions source [] state.cursor.ahead

variable {source : List Char} {state : ParseState} {token : Token} {lead : Lead}
  {kind : TokenKind}

theorem ahead_of_token? (htoken : state.token? = some token) :
    state.cursor.ahead = token :: state.moveNext.cursor.ahead := by
  have hbegun := Cursor.begun_of_token? htoken
  have hhead : state.cursor.ahead.head? = some token :=
    (Cursor.token?_of_begun hbegun).symm.trans htoken
  obtain ⟨rest, hahead⟩ := List.head?_eq_some_iff.1 hhead
  have hmove : state.moveNext.cursor.ahead = state.cursor.ahead.tail :=
    Cursor.ahead_moveNext hbegun
  rw [hmove, hahead]
  rfl

theorem ahead_next_eq (hbegun : state.cursor.Begun) :
    state.next.cursor.ahead = state.moveNext.cursor.ahead.dropWhile Token.isTrivia := by
  refine (Cursor.ahead_next hbegun).trans ?_
  rw [← Cursor.ahead_moveNext hbegun]
  rfl

theorem upcoming?_ahead (hbegun : state.cursor.Begun) :
    Lead.upcoming? (state.moveNext.cursor.ahead ++ []) = state.next.kind? := by
  have hnext : state.next.cursor.token? = state.next.cursor.ahead.head? :=
    Cursor.token?_of_begun (state.leadsTo_next.begun hbegun)
  unfold Lead.upcoming? kind? Cursor.kind?
  rw [hnext, ahead_next_eq hbegun, List.append_nil, Token.head?_significant]

theorem mentions_ahead (lead : Lead) (htoken : state.token? = some token) :
    lead.mentions source [] state.cursor.ahead =
      (lead.mention? source token (state.moveNext.cursor.ahead ++ [])).toList ++
        (lead.after source token).mentions source [] state.moveNext.cursor.ahead := by
  rw [ahead_of_token? htoken, Lead.mentions]

theorem mentions_ahead_next (hbegun : state.cursor.Begun) (hdot : lead ≠ .dot) :
    lead.mentions source [] state.moveNext.cursor.ahead =
      lead.mentions source [] state.next.cursor.ahead := by
  rw [ahead_next_eq hbegun, Lead.mentions_dropWhile hdot]

/-- Going on to the next significant token loses nothing, unless that token goes on with a class
reference. -/
theorem mentions_next (hbegun : state.cursor.Begun) (hdot : lead ≠ .dot)
    (hword : lead = .word → state.next.isAt .leftBracket = false)
    (hbracket : lead = .bracket → state.next.isAt .string = true →
      state.next.next.isAt .rightBracket = false) :
    lead.mentions source [] state.moveNext.cursor.ahead = state.next.mentions source := by
  have hbegunNext : state.next.cursor.Begun := state.leadsTo_next.begun hbegun
  unfold mentions
  rw [← mentions_ahead_next hbegun (by decide)]
  refine Lead.mentions_eq_mentions_other hdot ?_
  intro token rest hrest
  rw [← ahead_next_eq hbegun] at hrest
  have htoken : state.next.token? = some token := by
    refine (Cursor.token?_of_begun hbegunNext).trans ?_
    rw [hrest]
    rfl
  have hmove : state.next.moveNext.cursor.ahead = rest :=
    (List.cons.inj ((ahead_of_token? htoken).symm.trans hrest)).2
  have hat : ∀ kind, token.kind = kind → state.next.isAt kind = true :=
    fun kind hkind => beq_iff_eq.2 (congrArg (Option.map Token.kind) htoken |>.trans
      (congrArg some hkind))
  refine ⟨fun hkind hlead => ?_, fun hkind hlead hclosing => ?_⟩
  · have hnot := hword hlead
    rw [hat _ hkind] at hnot
    cases hnot
  · have hnot := hbracket hlead (hat _ hkind)
    rw [← hmove, upcoming?_ahead hbegunNext] at hclosing
    have hclosingAt : state.next.next.isAt .rightBracket = true := beq_iff_eq.2 hclosing
    rw [hclosingAt] at hnot
    cases hnot

theorem mentions_eq_of_idle (htoken : state.token? = some token)
    (hkind : token.kind ∉ Lead.tellingKinds) :
    state.mentions source = state.moveNext.mentions source ∧
      state.mentions source = state.next.mentions source := by
  simp only [Lead.tellingKinds, List.mem_cons, List.not_mem_nil, or_false, not_or] at hkind
  obtain ⟨hvariable, hstring, hdot, hname⟩ := hkind
  have hmove : state.mentions source = state.moveNext.mentions source := by
    unfold mentions
    rw [mentions_ahead _ htoken, Lead.mention?_eq_none hvariable hstring,
      Lead.after_other_eq_other hdot hname]
    rfl
  refine ⟨hmove, hmove.trans ?_⟩
  exact mentions_next (Cursor.begun_of_token? htoken) (by decide) (by intro h; cases h)
    (by intro h; cases h)

theorem mentions_eq_of_isAt (h : state.isAt kind = true)
    (hkind : kind ∉ Lead.tellingKinds) :
    state.mentions source = state.moveNext.mentions source ∧
      state.mentions source = state.next.mentions source := by
  obtain ⟨token, htoken, rfl⟩ := token?_of_isAt h
  exact mentions_eq_of_idle htoken hkind

theorem kind_eq_of_isAt {other : TokenKind} (h : state.isAt kind = true)
    (h' : state.isAt other = true) : kind = other :=
  Option.some.inj ((eq_of_beq h).symm.trans (eq_of_beq h'))

theorem mentions_called (htoken : state.token? = some token)
    (hname : token.kind = .identifier ∨ token.kind.category = .function) :
    Lead.dot.mentions source [] state.cursor.ahead = state.next.mentions source := by
  obtain ⟨hvariable, hstring, hdot⟩ :
      token.kind ≠ .variable ∧ token.kind ≠ .string ∧ token.kind ≠ .dot := by
    refine ⟨?_, ?_, ?_⟩ <;> intro hkind <;> rw [hkind] at hname <;> revert hname <;> decide
  rw [mentions_ahead _ htoken, Lead.mention?_eq_none hvariable hstring, Lead.after_dot hdot,
    mentions_ahead_next (Cursor.begun_of_token? htoken) (by decide)]
  rfl

/-- A name is passed over, unless it begins a reference to a class. -/
theorem mentions_name (htoken : state.token? = some token) (hname : token.kind = .identifier)
    (h : token.text source = classTypeName → state.next.isAt .leftBracket = true →
      state.next.next.isAt .string = true → state.next.next.next.isAt .rightBracket = false) :
    state.mentions source = state.next.mentions source := by
  have hbegun := Cursor.begun_of_token? htoken
  have hbegunNext : state.next.cursor.Begun := state.leadsTo_next.begun hbegun
  have hahead : state.mentions source =
      (Lead.other.after source token).mentions source [] state.moveNext.cursor.ahead := by
    unfold mentions
    rw [mentions_ahead _ htoken,
      Lead.mention?_eq_none (by rw [hname]; decide) (by rw [hname]; decide)]
    rfl
  rw [hahead]
  unfold Lead.after
  rw [hname]
  dsimp only
  split
  · rename_i hword
    cases hbracket : state.next.isAt .leftBracket with
    | false =>
        exact mentions_next hbegun (by decide) (fun _ => hbracket) (by intro h; cases h)
    | true =>
        obtain ⟨bracket, hopening, hkind⟩ := token?_of_isAt hbracket
        rw [mentions_ahead_next hbegun (by decide), mentions_ahead _ hopening,
          Lead.after_word hkind,
          Lead.mention?_eq_none (by rw [hkind]; decide) (by rw [hkind]; decide),
          mentions_next hbegunNext (by decide) (by intro h; cases h)
            (fun _ => h hword.2 hbracket),
          (mentions_eq_of_isAt hbracket (by decide)).2]
        rfl
  · exact mentions_next hbegun (by decide) (by intro h; cases h) (by intro h; cases h)

/-- A class reference is what its string is mentioned as. -/
theorem mentions_classReference {reference : Node} {last : ParseState}
    (htoken : state.token? = some token) (hname : token.kind = .identifier)
    (htext : token.text source = classTypeName)
    (h : state.classReference source false = (some reference, last)) :
    reference.kind = .classRef ∧
      state.mentions source = reference :: last.next.mentions source := by
  obtain ⟨hbracket, ⟨name, hnamed, hstring, rfl⟩, rfl, hclosing⟩ := classReference_some h
  refine ⟨rfl, ?_⟩
  obtain ⟨bracket, hopening, hkind⟩ := token?_of_isAt hbracket
  have hword : Lead.other.after source token = .word := by
    unfold Lead.after
    rw [hname]
    exact if_pos ⟨by decide, htext⟩
  have hbehind : Lead.bracket.after source name = .other := by
    unfold Lead.after
    rw [hstring]
    rfl
  have hmention : Lead.bracket.mention? source name
      (state.next.next.moveNext.cursor.ahead ++ []) = some (quotedClassRef source name) := by
    unfold Lead.mention?
    rw [hstring, upcoming?_ahead (Cursor.begun_of_token? hnamed)]
    exact if_pos ⟨rfl, eq_of_beq hclosing⟩
  unfold mentions
  rw [mentions_ahead _ htoken, hword,
    Lead.mention?_eq_none (by rw [hname]; decide) (by rw [hname]; decide),
    mentions_ahead_next (Cursor.begun_of_token? htoken) (by decide), mentions_ahead _ hopening,
    Lead.after_word hkind, Lead.mention?_eq_none (by rw [hkind]; decide) (by rw [hkind]; decide),
    mentions_ahead_next (Cursor.begun_of_token? hopening) (by decide),
    mentions_ahead _ hnamed, hbehind, hmention,
    mentions_ahead_next (Cursor.begun_of_token? hnamed) (by decide)]
  exact congrArg (quotedClassRef source name :: ·) (mentions_eq_of_isAt hclosing (by decide)).2

theorem isAt_rightBracket_of_classReference {last : ParseState}
    (h : state.classReference source false = (none, last))
    (hbracket : state.next.isAt .leftBracket = true)
    (hstring : state.next.next.isAt .string = true) :
    state.next.next.next.isAt .rightBracket = false := by
  obtain ⟨name, hnamed, hkind⟩ := token?_of_isAt hstring
  unfold classReference at h
  simp only [hbracket, hnamed, hkind, if_true] at h
  split at h
  · cases h
  · rename_i hclosing
    simpa using hclosing

end ParseState

end Manifest
