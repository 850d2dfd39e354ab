import Manifest.Proofs.Scanning.Mentions
import Manifest.Proofs.Scanning.Plain
import Manifest.Proofs.Scanning.Steps

/-!
# What a scan gathers from a plain run

Variables are read with a token of look-ahead, class references are tried and given up, and
calls and indices move tokens into stretches of their own.  Whichever way a scan goes on, what
it has gathered of variables and strings and what the tokens ahead stand for are together what
they were, so that in the end all has been gathered, in the order of the text.
-/

namespace Manifest

open ParseState (OnWay EndsRun Halts Passing)

open Node (gathered gathered_append gathered_of_not_isMention)

/-- The kinds of the elements into which a scan makes the tokens of a plain run. -/
def plainElements : List ElementKind :=
  [.variable, .variableDefinition, .string, .classRef, .typeReference, .functionCall]

theorem Lead.mentions_of_runStop {source : List Char} {lead : Lead} {stop : Token}
    {tokens behind : List Token} (h : stop.kind ∈ runStops) :
    lead.mentions source behind (stop :: tokens) =
      Lead.other.mentions source behind (stop :: tokens) := by
  have hafter : ∀ lead : Lead, lead.after source stop = .other := by
    intro lead
    unfold Lead.after
    simp only [runStops, List.mem_cons, List.not_mem_nil, or_false] at h
    rcases h with h | h | h | h | h | h <;> rw [h] <;>
      exact if_neg (fun htrivia => nomatch htrivia.1)
  have hmention : ∀ lead : Lead, lead.mention? source stop (tokens ++ behind) = none := by
    intro lead
    refine Lead.mention?_eq_none ?_ ?_ <;> intro hkind <;> rw [hkind] at h <;> revert h <;> decide
  rw [Lead.mentions, Lead.mentions, hafter, hafter, hmention, hmention]

/-- Where fewer than `bound` tokens are left, a scan gathers all that a passable run mentions. -/
structure Scan.Gathers (source : List Char) (bound : Nat) (scan : Scan) : Prop
    extends scan.Finds source bound where
  gathers : ∀ (offset : Nat) (stops : List TokenKind) (state goal : ParseState),
    state.remaining < bound → state.cursor.Placed source → offset ≤ state.offset source →
      goal.EndsRun stops → goal.OnWay stops [] state →
        gathered [(scan offset stops state).1] ++ gathered (goal.mentions source) =
          gathered (state.mentions source)

namespace Scanning

/-- A scan goes on with some elements more, which are made of all that is mentioned in `ahead`
but not in the tokens ahead any more. -/
def Gives (source : List Char) (ahead : List Node) (scanning other : Scanning) : Prop :=
  ∃ nodes, other.children = scanning.children ++ nodes ∧
    (∀ node ∈ nodes, node.kind ∈ plainElements) ∧
    gathered nodes ++ gathered (other.state.mentions source) = gathered ahead

variable {source : List Char} {bound : Nat} {scan : Scan} {stops : List TokenKind}
  {goal state : ParseState} {opened further : List Bracket} {kind : TokenKind}
  {token : Token} {node : Node} {ahead : List Node} {scanning other : Scanning}

/-! ## Ways to go on -/

theorem gives_nothing (hchildren : other.children = scanning.children)
    (h : ahead = other.state.mentions source) : Gives source ahead scanning other :=
  ⟨[], by rw [hchildren, List.append_nil], by simp, by rw [h]; rfl⟩

theorem gives_node (hchildren : other.children = scanning.children ++ [node])
    (hkind : plainElements.contains node.kind = true)
    (h : gathered [node] ++ gathered (other.state.mentions source) = gathered ahead) :
    Gives source ahead scanning other :=
  ⟨[node], hchildren, by simpa using List.contains_iff_mem.1 hkind, h⟩

theorem gathered_inside (bracket : Bracket) (hscan : scan.Gathers source bound)
    (hgoal : goal.Halts stops) (hplaced : state.cursor.Placed source)
    (hbound : state.remaining ≤ bound)
    (h : goal.OnWay stops opened state) (hat : state.isAt kind = true) (hkind : kind ∉ haltKinds)
    (hopens : Bracket.openedBy? kind = some bracket) :
    gathered [(scan.inside source [bracket.closing] state).1] ++
        gathered ((scan.inside source [bracket.closing] state).2.next.mentions source) =
      gathered (state.mentions source) := by
  obtain ⟨closer, hcloser, hinner, -, hfound⟩ :=
    exists_closer_inside bracket hscan.toFinds hgoal hplaced hbound h hat hkind hopens
  obtain ⟨token, htoken, -⟩ := ParseState.token?_of_isAt hat
  have hless : state.moveNext.remaining < state.remaining :=
    Cursor.remaining_moveNext_lt htoken
  have hgathers := hscan.gathers _ _ _ closer (Nat.lt_of_lt_of_le hless hbound)
    (ParseState.placed_moveNext hplaced) (Nat.le_refl _) hcloser hinner
  obtain ⟨stop, hstop, -, hends⟩ := hcloser
  have hbehind : closer.mentions source = closer.next.mentions source := by
    refine (ParseState.mentions_eq_of_idle hstop ?_).2
    have hkind : stop.kind = bracket.closing := by simpa using hends
    rw [hkind]
    cases bracket <;> decide
  have hahead : state.mentions source = state.moveNext.mentions source := by
    refine (ParseState.mentions_eq_of_isAt hat ?_).1
    unfold Bracket.openedBy? at hopens
    split at hopens <;> first | decide | cases hopens
  rw [hfound, ← hbehind, hahead]
  exact hgathers

/-! ## Strings, variables, calls and indices -/

theorem gives_string (htoken : scanning.state.token? = some token) (hkind : token.kind = .string) :
    Gives source (scanning.state.mentions source) scanning
      ((scanning.add [Node.string token.offset (token.text source)]).advance scanning.state) := by
  have hahead : scanning.state.mentions source =
      Node.string token.offset (token.text source) :: scanning.state.next.mentions source := by
    have hmention : ∀ behind, Lead.other.mention? source token behind =
        some (Node.string token.offset (token.text source)) := by
      intro behind
      unfold Lead.mention?
      rw [hkind]
      rfl
    unfold ParseState.mentions
    rw [ParseState.mentions_ahead _ htoken, hmention,
      Lead.after_other_eq_other (by rw [hkind]; decide) (by rw [hkind]; decide),
      ParseState.mentions_ahead_next (Cursor.begun_of_token? htoken) (by decide)]
    rfl
  refine gives_node rfl rfl ?_
  rw [hahead, ← gathered_append]
  rfl

theorem gives_variableAt (htoken : scanning.state.token? = some token)
    (hkind : token.kind = .variable) :
    Gives source (scanning.state.mentions source) scanning
      (scanning.variableAt source token) := by
  have hbegun := Cursor.begun_of_token? htoken
  have hahead : scanning.state.mentions source =
      (Lead.other.mention? source token (scanning.state.moveNext.cursor.ahead ++ [])).toList ++
        scanning.state.next.mentions source := by
    unfold ParseState.mentions
    rw [ParseState.mentions_ahead _ htoken,
      Lead.after_other_eq_other (by rw [hkind]; decide) (by rw [hkind]; decide),
      ParseState.mentions_ahead_next hbegun (by decide)]
  unfold Lead.mention? at hahead
  rw [hkind, ParseState.upcoming?_ahead hbegun] at hahead
  dsimp only at hahead
  unfold variableAt
  dsimp only
  split
  · rename_i hequals
    have hbehind : scanning.state.next.mentions source =
        scanning.state.next.next.mentions source :=
      (ParseState.mentions_eq_of_isAt hequals (by decide)).2
    rw [if_pos (eq_of_beq hequals)] at hahead
    refine gives_node rfl rfl ?_
    rw [hahead, gathered_append, hbehind]
    rfl
  · rename_i hequals
    rw [if_neg (fun h => hequals (beq_iff_eq.2 h))] at hahead
    refine gives_node rfl rfl ?_
    rw [hahead, gathered_append]
    rfl

theorem gives_callAt (hscan : scan.Gathers source bound) (hgoal : goal.Halts stops)
    (hplaced : state.cursor.Placed source) (hbound : state.remaining ≤ bound)
    (hnext : goal.OnWay stops opened state.next) :
    Gives source (state.next.mentions source) scanning
      (scanning.callAt source scan token state) := by
  unfold callAt
  dsimp only
  split
  · rename_i hparen
    refine gives_node rfl rfl ?_
    rw [gathered_of_not_isMention rfl]
    exact gathered_inside .round hscan hgoal (ParseState.placed_next hplaced)
      (Nat.le_trans state.remaining_next_le hbound) hnext hparen (by decide) rfl
  · refine gives_node rfl rfl ?_
    rw [gathered_of_not_isMention rfl]
    rfl

/-- A name right behind a dot is called, and nothing is made of it but the call. -/
theorem gives_dotAt (hscan : scan.Gathers source bound) (hgoal : goal.Halts stops)
    (hplaced : scanning.state.cursor.Placed source) (hbound : scanning.state.remaining ≤ bound)
    (hmove : goal.OnWay stops opened scanning.state.moveNext)
    (htoken : scanning.state.token? = some token) (hkind : token.kind = .dot) :
    Gives source (scanning.state.mentions source) scanning (scanning.dotAt source scan) := by
  have hahead : scanning.state.mentions source =
      Lead.dot.mentions source [] scanning.state.moveNext.cursor.ahead := by
    have hafter : Lead.other.after source token = .dot := by
      unfold Lead.after
      rw [hkind]
    unfold ParseState.mentions
    rw [ParseState.mentions_ahead _ htoken, hafter,
      Lead.mention?_eq_none (by rw [hkind]; decide) (by rw [hkind]; decide)]
    rfl
  have hbegun : scanning.state.moveNext.cursor.Begun :=
    scanning.state.leadsTo_moveNext.begun hplaced.begun
  unfold dotAt
  dsimp only
  split
  · rename_i hnone
    refine gives_nothing rfl (hahead.trans ?_)
    refine Lead.mentions_dot fun first hfirst => ?_
    rw [← Cursor.token?_of_begun hbegun] at hfirst
    cases hnone.symm.trans hfirst
  · rename_i named hnamed
    split
    · rename_i hname
      obtain ⟨-, -, hstop⟩ := plain_of_name hname
      have hat : scanning.state.moveNext.isAt named.kind = true :=
        beq_iff_eq.2 (congrArg (Option.map Token.kind) hnamed)
      obtain ⟨first, further, hkind, hpassing⟩ := passing_of_isAt hgoal hmove hat hstop
      rw [hahead, ParseState.mentions_called hnamed hname]
      exact gives_callAt hscan hgoal (ParseState.placed_moveNext hplaced)
        (Nat.le_trans scanning.state.remaining_moveNext_le hbound) hpassing.next
    · rename_i hname
      refine gives_nothing rfl (hahead.trans ?_)
      refine Lead.mentions_dot fun first hfirst => ?_
      rw [← Cursor.token?_of_begun hbegun] at hfirst
      obtain rfl : named = first := Option.some.inj (hnamed.symm.trans hfirst)
      exact fun hkind => hname (.inl hkind)

theorem gives_applied? (hscan : scan.Gathers source bound) (hgoal : goal.Halts stops)
    (hplaced : scanning.state.cursor.Placed source) (hbound : scanning.state.remaining ≤ bound)
    (hnext : goal.OnWay stops opened scanning.state.next)
    (htoken : scanning.state.token? = some token) (hname : token.kind = .identifier)
    (h : scanning.applied? source scan token = some other) :
    Gives source (scanning.state.mentions source) scanning other := by
  have hfollowing := Nat.le_trans scanning.state.remaining_next_le hbound
  have hplacedNext := ParseState.placed_next hplaced
  unfold applied? at h
  dsimp only at h
  split at h
  · rename_i hparen
    obtain rfl := Option.some.inj h
    have hahead : scanning.state.mentions source = scanning.state.next.mentions source :=
      ParseState.mentions_name htoken hname fun _ hbracket => by
        cases ParseState.kind_eq_of_isAt hparen hbracket
    rw [hahead]
    refine gives_node rfl rfl ?_
    rw [gathered_of_not_isMention rfl]
    exact gathered_inside .round hscan hgoal hplacedNext hfollowing hnext hparen (by decide) rfl
  · split at h
    · rename_i hbracket
      split at h
      · rename_i reference last heq
        obtain rfl := Option.some.inj h
        split at heq
        · rename_i htext
          obtain ⟨hkind, hahead⟩ := ParseState.mentions_classReference htoken hname htext heq
          refine gives_node rfl (by rw [hkind]; rfl) ?_
          rw [hahead, ← gathered_append]
          rfl
        · cases heq
      · rename_i failed heq
        split at h
        · obtain rfl := Option.some.inj h
          have hahead : scanning.state.mentions source = scanning.state.next.mentions source := by
            refine ParseState.mentions_name htoken hname fun htext _ hstring => ?_
            rw [if_pos htext] at heq
            exact ParseState.isAt_rightBracket_of_classReference heq hbracket hstring
          rw [hahead]
          refine gives_node rfl rfl ?_
          rw [gathered_of_not_isMention rfl]
          exact gathered_inside .square hscan hgoal hplacedNext hfollowing hnext hbracket
            (by decide) rfl
        · cases h
    · cases h

/-! ## Names and single tokens -/

/-- What is no call and no index is no class reference. -/
theorem mentions_of_applied? (htoken : scanning.state.token? = some token)
    (hname : token.kind = .identifier) (h : scanning.applied? source scan token = none) :
    scanning.state.mentions source = scanning.state.next.mentions source := by
  refine ParseState.mentions_name htoken hname fun htext hbracket hstring => ?_
  have hcapital : startsWithCapital classTypeName = true := by decide
  unfold applied? at h
  dsimp only at h
  split at h
  · cases h
  · simp only [htext, hcapital, if_true] at h
    split at h
    · cases h
    · cases h

theorem gives_wordAt (hscan : scan.Gathers source bound) (hgoal : goal.Halts stops)
    (hplaced : scanning.state.cursor.Placed source) (hbound : scanning.state.remaining ≤ bound)
    (hnesting : scanning.nesting = .ofOpen opened) (hname : token.kind = .identifier)
    (h : goal.Passing stops opened scanning.state token opened) :
    Gives source (scanning.state.mentions source) scanning
      (scanning.wordAt source scan stops token) := by
  unfold wordAt
  dsimp only
  rw [if_pos hname]
  cases happlied : scanning.applied? source scan token with
  | some other => exact gives_applied? hscan hgoal hplaced hbound h.next h.token? hname happlied
  | none =>
      rw [Option.getD_none, nameAt_of_passing hgoal hnesting hname h]
      exact gives_nothing rfl (mentions_of_applied? h.token? hname happlied)

theorem gives_significantAt (hscan : scan.Gathers source bound) (hgoal : goal.Halts stops)
    (hplaced : scanning.state.cursor.Placed source) (hbound : scanning.state.remaining ≤ bound)
    (hnesting : scanning.nesting = .ofOpen opened)
    (h : goal.Passing stops opened scanning.state token opened) :
    Gives source (scanning.state.mentions source) scanning
      (scanning.significantAt source scan stops token) := by
  refine significantAt_cases h.statement (gives_string h.token?) (gives_variableAt h.token?)
    (fun hname => ?_) (fun hdot => ?_) fun hidle => ?_
  · exact gives_wordAt hscan hgoal hplaced hbound hnesting hname h
  · exact gives_dotAt hscan hgoal hplaced hbound h.moveNext h.token? hdot
  · have hahead : scanning.state.mentions source = scanning.state.next.mentions source :=
      (ParseState.mentions_eq_of_idle h.token? hidle).2
    refine ⟨?_, gives_nothing rfl hahead⟩
    rw [hahead]
    exact gives_callAt hscan hgoal hplaced hbound h.next

theorem not_telling_of_track {nesting tracked : Nesting}
    (h : nesting.track kind = some tracked) : kind ∉ Lead.tellingKinds := by
  unfold Nesting.track at h
  split at h <;> first | decide | cases h

/-- Whatever a plain run holds under the cursor, the scan gathers what it mentions. -/
theorem gives_tokenAt (hscan : scan.Gathers source bound) (hgoal : goal.Halts stops)
    (hplaced : scanning.state.cursor.Placed source) (hbound : scanning.state.remaining ≤ bound)
    (hnesting : scanning.nesting = .ofOpen opened)
    (h : goal.Passing stops opened scanning.state token further) :
    Gives source (scanning.state.mentions source) scanning
      (scanning.tokenAt source scan stops token) := by
  unfold tokenAt
  split
  · rename_i htrivia
    exact gives_nothing rfl
      (ParseState.mentions_eq_of_idle h.token? (Lead.not_telling_of_isTrivia htrivia)).2
  · rw [hnesting]
    rcases Nesting.track_ofOpen h.brackets with htrack | ⟨htrack, rfl⟩
    · rw [htrack]
      exact gives_nothing rfl
        (ParseState.mentions_eq_of_idle h.token? (not_telling_of_track htrack)).2
    · rw [htrack]
      exact gives_significantAt hscan hgoal hplaced hbound hnesting h

/-! ## Loops -/

theorem Gives.trans {next : Scanning} (h : Gives source ahead scanning next)
    (h' : Gives source (next.state.mentions source) next other) :
    Gives source ahead scanning other := by
  obtain ⟨nodes, hchildren, hkinds, hgathered⟩ := h
  obtain ⟨more, hchildren', hkinds', hgathered'⟩ := h'
  refine ⟨nodes ++ more, ?_, ?_, ?_⟩
  · rw [hchildren', hchildren, List.append_assoc]
  · exact fun node hnode => (List.mem_append.1 hnode).elim (hkinds node) (hkinds' node)
  · rw [gathered_append, List.append_assoc, hgathered', hgathered]

theorem reaches_goal {origin : ParseState} {start : Int}
    (hscan : (Manifest.scan source).Gathers source bound) (hgoal : goal.Halts stops)
    (hlaying : Laying source origin start scanning) (hbound : scanning.state.remaining ≤ bound)
    (h : Counts goal stops scanning) :
    ∃ met last, Reaches source stops scanning met last ∧ last.state = goal ∧
      last.nesting = .ofOpen [] ∧ Gives source (scanning.state.mentions source) scanning last := by
  induction hcount : scanning.state.remaining using Nat.strongRecOn generalizing scanning with
  | _ count ih =>
      obtain ⟨opened, hnesting, honway⟩ := h
      rcases honway.cases hgoal with ⟨hend, rfl⟩ | ⟨token, further, hpassing⟩
      · exact ⟨[], scanning, .here scanning, hend, hnesting, gives_nothing rfl rfl⟩
      · have hstep : step source (Manifest.scan source) stops scanning = .again _ :=
          step_of_passing hnesting hpassing
        have hplaced := hlaying.placed_after
        obtain ⟨hnext, hless⟩ :=
          laying_step (Scan.lays_scan source origin.remaining) (Nat.le_refl _) hlaying hstep
        obtain ⟨met, last, hreaches, hend, hclosed, hgives⟩ := ih _ (by omega) hnext (by omega)
          (counts_tokenAt hscan.toFinds hgoal hplaced hbound hnesting hpassing) rfl
        exact ⟨token :: met, last, .onward hpassing.token? hstep hreaches, hend, hclosed,
          (gives_tokenAt hscan hgoal hplaced hbound hnesting hpassing).trans hgives⟩

end Scanning

/-! ## Scans -/

namespace Scan

/-- A scan of a plain run gathers what the run mentions, as the scans inside of it do. -/
theorem gathers_scan (source : List Char) (bound : Nat) :
    (Manifest.scan source).Gathers source bound := by
  induction bound with
  | zero =>
      refine ⟨finds_scan source 0, fun offset stops state goal hbound => ?_⟩
      exact (Nat.not_lt_zero _ hbound).elim
  | succ bound ih =>
      refine ⟨finds_scan source (bound + 1), ?_⟩
      intro offset stops state goal hbound hplaced hoffset hgoal honway
      have hcounts : Scanning.Counts goal stops (.begin state) := ⟨[], rfl, honway⟩
      obtain ⟨met, last, hreaches, hend, hclosed, nodes, hchildren, -, hgathered⟩ :=
        Scanning.reaches_goal ih hgoal.halts (Scanning.laying_begin hplaced)
          (Nat.le_of_lt_succ hbound) hcounts
      have hdone : last.step source (Manifest.scan source) stops = .done last :=
        Scanning.step_of_endsRun hgoal hend hclosed
      have hnodes : (last.node source offset).children = nodes := hchildren
      rw [hend] at hgathered
      rw [hreaches.scan_eq hdone hplaced hoffset, gathered_of_not_isMention rfl, hnodes]
      exact hgathered

/-- What a scan of a plain run takes out is all that the run mentions. -/
theorem gathered_scan {source : List Char} {stops : List TokenKind} {first goal : ParseState}
    {run : List Token} (hplaced : first.cursor.Placed source) (hgoal : goal.EndsRun stops)
    (hbefore : goal.Before run first) (hrun : PassableRun stops [] run) :
    gathered [(Manifest.scan source (first.offset source) stops first).1] =
      gathered (Lead.other.mentions source goal.cursor.ahead run) := by
  have hgathers := (gathers_scan source (first.remaining + 1)).gathers (first.offset source) stops
    first goal (Nat.lt_succ_self _) hplaced (Nat.le_refl _) hgoal ⟨run, hbefore, hrun⟩
  obtain ⟨stop, hstop, hkind, -⟩ := hgoal
  have hbehind : ∀ lead : Lead,
      lead.mentions source [] goal.cursor.ahead = goal.mentions source := by
    intro lead
    unfold ParseState.mentions
    rw [ParseState.ahead_of_token? hstop]
    exact Lead.mentions_of_runStop hkind
  have hahead : first.mentions source =
      Lead.other.mentions source goal.cursor.ahead run ++ goal.mentions source := by
    unfold ParseState.mentions
    rw [hbefore.ahead, Lead.mentions_append, List.append_nil, hbehind]
    rfl
  rw [hahead, gathered_append] at hgathers
  exact List.append_cancel_right hgathers

/-- Walking the stretch of a plain run meets each variable and each string of the run just once,
in the order of the text: a variable as a definition where an equals sign follows, a string as a
reference to a class where it is all that stands in the brackets of a `Class` which no dot
precedes.  Besides these there are only the variables that are interpolated in a string, which
come right behind it. -/
theorem walk_scan_plainRun (multiline : Bool) (source : List Char) (stops : List TokenKind)
    (before run : List Token) (stop : Token) (after : List Token) (reported : List Diagnostic)
    (hlex : (TokenStream.lex multiline source).tokens = before ++ (run ++ stop :: after))
    (hrun : PlainRun [] run) (hstops : ∀ kind ∈ stops, kind ∈ runStops)
    (hstop : stops.contains stop.kind = true)
    (hpassed : ∀ token ∈ Bracket.outside [] run, stops.contains token.kind = false) :
    let first : ParseState := ⟨.enter before.reverse (run ++ stop :: after), reported⟩
    let mentions := Lead.other.mentions source (stop :: after) run
    ∃ blob, Checked.scan source (first.offset source) stops first =
        .ok (blob, ⟨.on (before ++ run).reverse stop after, reported⟩) ∧
      blob.walk.filter Node.isMention = mentions.flatMap (fun node => node :: node.interpolations) ∧
      List.Forall₂ Token.TakenAs (run.filter Token.isMention) mentions ∧
      mentions.Pairwise fun first second => first.offset < second.offset := by
  intro first mentions
  have hbegun : first.cursor.Begun := Cursor.begun_enter _ _
  have hahead : first.cursor.ahead = run ++ stop :: after := Cursor.ahead_enter _ _
  have htokens : first.cursor.tokens = (TokenStream.lex multiline source).tokens := by
    rw [Cursor.tokens_eq, hahead, Cursor.behind_enter, List.reverse_reverse, hlex]
  have hplaced : first.cursor.Placed source := Cursor.placed_of_lex hbegun htokens
  have hgoal : EndsRun stops ⟨.on (before ++ run).reverse stop after, reported⟩ :=
    ⟨stop, rfl, hstops _ (List.contains_iff_mem.1 hstop), hstop⟩
  have hbefore :
      ParseState.Before ⟨.on (before ++ run).reverse stop after, reported⟩ run first := by
    refine ⟨rfl, hbegun, hahead, ?_⟩
    rw [Cursor.behind_enter]
    exact List.reverse_append
  have hresult : (Manifest.scan source (first.offset source) stops first).2 =
      ⟨.on (before ++ run).reverse stop after, reported⟩ :=
    (finds_scan source (first.remaining + 1)).finds (first.offset source) stops first _
      (Nat.lt_succ_self _) hplaced (Nat.le_refl _) hgoal ⟨run, hbefore, hrun, hpassed⟩
  have hchecked := (Checked.agrees_scan source (first.remaining + 1)).agrees
    (first.offset source) stops first (Nat.lt_succ_self _) hplaced (Nat.le_refl _)
  have hgathered := gathered_scan hplaced hgoal hbefore ⟨hrun, hpassed⟩
  rw [Lead.gathered_mentions, Node.gathered_singleton] at hgathered
  have htaken : List.Forall₂ Token.TakenAs (run.filter Token.isMention) mentions := by
    refine Lead.forall₂_mentions .other fun token htoken => ?_
    have hmem : token ∈ (TokenStream.lex multiline source).tokens := by
      rw [hlex]
      exact List.mem_append_right _ (List.mem_append_left _ htoken)
    exact ⟨(TokenStream.tiles_lex multiline source).2 token hmem,
      (TokenStream.lex_between multiline source token hmem).2⟩
  refine ⟨_, hchecked.trans (congrArg Except.ok (Prod.ext rfl hresult)), hgathered, htaken,
    Lead.pairwise_of_forall₂ htaken ?_⟩
  have hordered := (TokenStream.tiles_lex multiline source).1.pairwise_offset
    fun token htoken => (TokenStream.lex_between multiline source token htoken).1
  rw [hlex] at hordered
  exact (List.pairwise_append.1 (List.pairwise_append.1 hordered).2.1).1.filter _

def mixedMentions : List Char :=
  "$a = f('b', Class['c'], x.Class['d'])[$e], \"$g\" ]".toList

def mentionsRun : List Token :=
  (TokenStream.lex false mixedMentions).tokens.take 29

/-- Of the mixed text all is gathered. -/
theorem walk_scan_plainRun_mixedMentions :
    ∃ (stop : Token) (after : List Token),
      (TokenStream.lex false mixedMentions).tokens = [] ++ (mentionsRun ++ stop :: after) ∧
      PlainRun [] mentionsRun ∧ (∀ kind ∈ [TokenKind.rightBracket], kind ∈ runStops) ∧
      [TokenKind.rightBracket].contains stop.kind = true ∧
      (∀ token ∈ Bracket.outside [] mentionsRun,
        [TokenKind.rightBracket].contains token.kind = false) ∧
      ∃ blob, Checked.scan mixedMentions
          (ParseState.offset mixedMentions ⟨.enter [] (mentionsRun ++ stop :: after), []⟩)
          [.rightBracket] ⟨.enter [] (mentionsRun ++ stop :: after), []⟩ =
          .ok (blob, ⟨.on mentionsRun.reverse stop after, []⟩) ∧
        blob.walk.filter Node.isMention =
          (Lead.other.mentions mixedMentions (stop :: after) mentionsRun).flatMap
            (fun node => node :: node.interpolations) ∧
        List.Forall₂ Token.TakenAs (mentionsRun.filter Token.isMention)
          (Lead.other.mentions mixedMentions (stop :: after) mentionsRun) ∧
        (Lead.other.mentions mixedMentions (stop :: after) mentionsRun).Pairwise
          fun first second => first.offset < second.offset := by
  have hbracket : ((TokenStream.lex false mixedMentions).tokens.drop 29).head?.map Token.kind =
      some .rightBracket := by decide +kernel
  obtain ⟨stop, hhead, hkind⟩ := Option.map_eq_some_iff.1 hbracket
  obtain ⟨after, hdrop⟩ := List.head?_eq_some_iff.1 hhead
  have hlex : (TokenStream.lex false mixedMentions).tokens =
      [] ++ (mentionsRun ++ stop :: after) := by
    rw [List.nil_append, ← hdrop]
    exact (List.take_append_drop 29 _).symm
  have hrun : PlainRun [] mentionsRun :=
    ⟨by decide +kernel, by decide +kernel, by decide +kernel⟩
  have hstop : [TokenKind.rightBracket].contains stop.kind = true := by
    rw [hkind]
    rfl
  have hpassed : ∀ token ∈ Bracket.outside [] mentionsRun,
      [TokenKind.rightBracket].contains token.kind = false := by
    decide +kernel
  exact ⟨stop, after, hlex, hrun, by decide, hstop, hpassed,
    walk_scan_plainRun false mixedMentions [.rightBracket] [] mentionsRun stop after [] hlex hrun
      (by decide) hstop hpassed⟩

end Scan

end Manifest
