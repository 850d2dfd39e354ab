import Manifest.Proofs.Checked.Declarations
import Manifest.Proofs.Parallel.Resources

/-!
# Declarations side by side

Parameters, names and bodies are read alike.  A declaration ends on the last token of its body;
without one it goes back, and stands at the same place only once it goes on.
-/

namespace Manifest

variable {p : Parallel} {bound bound' : Nat} {scan twin : Scan} {left right : ParseState}
  {token mate : Token}

/-! ## Parameters -/

namespace Params

structure Alike (p : Parallel) (bound bound' : Nat) (read other : Params) : Prop where
  params : List.Forall₂ p.nodes read.params other.params
  type? : Option.Rel p.ranges read.type? other.type?
  open? : Option.Rel
    (fun opened other => p.ranges opened.type other.type ∧ p.tokens opened.token other.token)
    read.open? other.open?
  default? : Option.Rel p.nodes read.default? other.default?
  depth : other.depth = read.depth
  states : p.Abreast bound bound' read.state other.state

variable {read other : Params}

theorem Alike.close (hp : p.Lawful) (h : Alike p bound bound' read other) :
    Alike p bound bound' (read.close p.left) (other.close p.right) := by
  obtain ⟨params, type?, open?, default?, depth, state⟩ := read
  obtain ⟨params', type?', open?', default?', depth', state'⟩ := other
  obtain ⟨hparams, -, hopen, hdefault, -, hstates⟩ := h
  refine ⟨?_, .none, .none, .none, rfl, hstates⟩
  dsimp only at hopen
  cases hopen with
  | none => exact hparams
  | some hopen =>
      exact List.rel_append hparams (.cons (hp.builds.param hopen.1 hopen.2 hdefault) .nil)

theorem ranges_of_tokens (hp : p.Lawful) (h : p.tokens token mate) :
    p.ranges token.range mate.range :=
  ⟨hp.offset h, hp.stop h⟩

theorem ranges_cover (hp : p.Lawful) {range range' more more' : TextRange}
    (h : p.ranges range range') (hmore : p.ranges more more') :
    p.ranges (range.cover more) (range'.cover more') :=
  ⟨hp.min h.1 hmore.1, hp.max h.2 hmore.2⟩

/-- The types of two parameters grow alike; where nothing else is agreed they are new. -/
theorem alike_stepType (hp : p.Lawful) (h : Alike p bound bound' read other)
    (htokens : p.tokens token mate) :
    p.Lost (stepType p.left token read).state ∨
      Alike p bound bound' (stepType p.left token read) (stepType p.right mate other) := by
  rcases h.states.next hp with hlost | ⟨-, hstates⟩
  · rw [remaining_stepType]
    exact .inl hlost
  · refine .inr ?_
    have hclose := h.close hp
    have htype := h.type?
    unfold stepType
    dsimp only
    rw [hp.kind htokens, h.depth]
    generalize read.type? = type? at htype ⊢
    generalize other.type? = type?' at htype ⊢
    split
    · have hrange : p.ranges (type?.getD (TextRange.empty token.offset))
          (type?'.getD (TextRange.empty mate.offset)) := by
        cases htype with
        | none => exact ⟨hp.offset htokens, hp.offset htokens⟩
        | some hrange => exact hrange
      exact { h with
        type? := .some hrange
        open? := .some ⟨hrange, htokens⟩
        depth := rfl
        states := hstates }
    · split
      · exact { hclose with states := hstates }
      · have hrange : p.ranges ((type?.map fun type => type.cover token.range).getD token.range)
            ((type?'.map fun type => type.cover mate.range).getD mate.range) := by
          cases htype with
          | none => exact ranges_of_tokens hp htokens
          | some hrange => exact ranges_cover hp hrange (ranges_of_tokens hp htokens)
        exact { h with type? := .some hrange, depth := rfl, states := hstates }

theorem paramDefaultStops_significant : ∀ kind ∈ paramDefaultStops, kind.isTrivia = false := by
  decide

theorem Alike.onward (hp : p.Lawful) (h : Alike p bound bound' read other) :
    p.Steps Params.state (Alike p bound bound') (.again { read with state := read.state.next })
      (.again { other with state := other.state.next }) := by
  rcases h.states.next hp with hlost | ⟨-, hstates⟩
  · exact .lost hlost
  · exact .again { h with states := hstates }

theorem paired_stepRest (hp : p.Lawful) (hscan : p.Twins bound bound' scan twin)
    (h : Alike p bound bound' read other) (htokens : p.tokens token mate) :
    p.Steps Params.state (Alike p bound bound') (stepRest p.left scan token read)
      (stepRest p.right twin mate other) := by
  have hbelow := Nat.lt_of_le_of_lt read.state.remaining_next_le h.states.below
  have hdefault := (h.states.next hp).andThen
    (hscan.lays.here (ParseState.placed_next h.states.placed) hbelow paramDefaultStops).leads
    fun _ hstates => hscan.here hp paramDefaultStops_significant hstates.toBeside
  unfold stepRest
  rw [hp.kind htokens]
  split
  · dsimp only
    generalize scan.here p.left paramDefaultStops read.state.next = default at hdefault ⊢
    generalize twin.here p.right paramDefaultStops other.state.next = default' at hdefault ⊢
    rcases hdefault with hlost | ⟨hdefault, hstates⟩
    · rw [hlost.isAt, hlost.isAt, hlost.token?]
      exact .failed hlost
    · have halike : Alike p bound bound'
          { read with default? := some default.1, state := default.2 }
          { other with default? := some default'.1, state := default'.2 } :=
        { h with default? := .some hdefault, states := hstates }
      have hnone : default'.2.token?.isNone = default.2.token?.isNone := by
        rw [← Option.not_isSome, ← Option.not_isSome, hstates.isSome hp]
      rw [hstates.isAt hp, hstates.isAt hp, hnone]
      split
      · exact (halike.close hp).onward hp
      · split
        · exact .done halike
        · exact halike.onward hp
  · split
    · exact (h.close hp).onward hp
    · exact h.onward hp

theorem paired_step (hp : p.Lawful) (hscan : p.Twins bound bound' scan twin)
    (h : Alike p bound bound' read other) :
    p.Steps Params.state (Alike p bound bound') (step p.left scan read)
      (step p.right twin other) := by
  unfold step
  rcases h.states.cases hp with ⟨hleft, hright, -⟩ | ⟨token, mate, hleft, hright, htokens⟩
  · rw [hleft, hright]
    exact .done h
  · have htype := alike_stepType hp h htokens
    have hrest := paired_stepRest hp hscan h htokens
    have hopen := h.open?
    rw [hleft, hright]
    dsimp only
    rw [hp.kind htokens]
    split
    · exact .done h
    · generalize read.open? = open? at hopen ⊢
      generalize other.open? = open?' at hopen ⊢
      cases hopen with
      | none =>
          rcases htype with hlost | halike
          · exact .lost hlost
          · exact .again halike
      | some _ => exact hrest

theorem meets_readAll (hp : p.Lawful) (hscan : p.Twins bound bound' scan twin)
    (h : p.Abreast bound bound' left right) :
    p.Meets bound bound'
      (List.Forall₂ p.nodes (readAll p.left scan left).params (readAll p.right twin right).params)
      (readAll p.left scan left).state.next (readAll p.right twin right).state.next := by
  have hbelow := Nat.lt_of_le_of_lt left.remaining_next_le h.below
  refine (h.next hp).andThen (reads_readAll hscan.lays (Nat.le_of_lt hbelow) h.placed).1.leads
    fun _ hnext => ?_
  have hread := Parallel.steps_iterate Params.state Params.state
    (fun _ _ hread => paired_step hp hscan hread)
    (fun read hnone => by unfold step; rw [hnone])
    (fun _ _ _ hread =>
      remaining_step hscan.lays (Nat.le_of_lt hread.states.below) hread.states.placed)
    (fun _ _ _ hread =>
      remaining_step hscan.lays' (Nat.le_of_lt hread.states.below') hread.states.placed')
    ⟨[], none, none, none, 0, left.next⟩ ⟨[], none, none, none, 0, right.next⟩
    ⟨.nil, .none, .none, .none, rfl, hnext⟩
  rcases hread with hlost | halike
  · exact .inl hlost.next
  · exact (halike.states.next hp).imp fun _ => (halike.close hp).params

/-! ## No parameter is a stretch of tokens -/

def NoBlob (read : Params) : Prop :=
  ∀ param ∈ read.params, param.isBlob = false

variable {source : List Char}

theorem NoBlob.close (h : read.NoBlob) : (read.close source).NoBlob := by
  unfold Params.close NoBlob
  dsimp only
  split
  · intro param hparam
    rcases List.mem_append.1 hparam with hbefore | hlast
    · exact h param hbefore
    · obtain rfl := List.mem_singleton.1 hlast
      rfl
  · exact h

theorem NoBlob.step (h : read.NoBlob) : (step source scan read).state.NoBlob := by
  unfold Params.step
  split
  · exact h
  · split
    · exact h
    · split
      · unfold stepType
        dsimp only
        split
        · exact h
        · split
          · exact h.close
          · exact h
      · unfold stepRest
        dsimp only
        generalize scan.here source paramDefaultStops read.state.next = default
        split
        · split
          · have hdefault : NoBlob { read with default? := some default.1, state := default.2 } :=
              h
            exact hdefault.close
          · split
            · exact h
            · exact h
        · split
          · exact h.close
          · exact h

theorem noBlob_readAll (source : List Char) (scan : Scan) (state : ParseState) :
    (readAll source scan state).NoBlob := by
  unfold readAll
  exact NoBlob.close (iterate_invariant NoBlob (fun _ hread => hread.step) _ _
    fun _ hparam => by cases hparam)

end Params

/-! ## Names of nodes -/

namespace NodeNames

variable {source : List Char} {read other next : NodeNames}

theorem remaining_step (h : step source read = .again next) :
    next.state.remaining < read.state.remaining := by
  unfold step at h
  split at h
  · cases h
  · rename_i token htoken
    have hless := ParseState.remaining_next_lt htoken
    split at h
    · cases h
    · split at h
      · obtain rfl := Progress.again.inj h
        exact hless
      · obtain rfl := Progress.again.inj h
        exact hless

def Alike (p : Parallel) (bound bound' : Nat) (read other : NodeNames) : Prop :=
  other.names = read.names ∧ p.Abreast bound bound' read.state other.state

theorem paired_step (hp : p.Lawful) (h : Alike p bound bound' read other) :
    p.Steps NodeNames.state (Alike p bound bound') (step p.left read) (step p.right other) := by
  unfold step
  rcases h.2.cases hp with ⟨hleft, hright, -⟩ | ⟨token, mate, hleft, hright, htokens⟩
  · rw [hleft, hright]
    exact .done h
  · rw [hleft, hright]
    dsimp only
    rw [hp.kind htokens, hp.text htokens, h.1]
    split
    · exact .done h
    · rcases h.2.next hp with hlost | ⟨-, hstates⟩
      · split
        · exact .lost hlost
        · exact .lost hlost
      · split
        · exact .again ⟨rfl, hstates⟩
        · exact .again ⟨rfl, hstates⟩

theorem meets_readAll (hp : p.Lawful) (h : p.Abreast bound bound' left right) :
    p.Meets bound bound' ((readAll p.right right).names = (readAll p.left left).names)
      (readAll p.left left).state (readAll p.right right).state :=
  Parallel.steps_iterate NodeNames.state NodeNames.state
    (fun _ _ hread => paired_step hp hread) (fun read hnone => by unfold step; rw [hnone])
    (fun _ _ _ _ => remaining_step) (fun _ _ _ _ => remaining_step) ⟨[], left⟩ ⟨[], right⟩
    ⟨rfl, h⟩

end NodeNames

/-! ## Names of defined types -/

namespace Parallel

/-- Texts that are put together up to a blank or another stop are the same on both sides. -/
theorem Row.collectFrom (hp : p.Lawful) {stops : List TokenKind}
    (hstops : ∀ kind : TokenKind, kind.isTrivia = true → stops.contains kind = true)
    {tokens mates : List Token} (h : p.Row tokens mates) (behind behind' : List Token) :
    let read := Cursor.collectFrom p.left stops behind tokens
    let other := Cursor.collectFrom p.right stops behind' mates
    (p.beyond ≠ [] ∧ read.1 = none ∧ read.2.ahead = []) ∨
      (other.1 = read.1 ∧ p.Row read.2.ahead other.2.ahead ∧
        (read.1 = none → read.2.ahead = [])) := by
  induction h generalizing behind behind' with
  | ended hrest =>
      by_cases hbeyond : p.beyond = []
      · rw [hrest, hbeyond]
        exact .inr ⟨rfl, .ended hbeyond.symm, fun _ => rfl⟩
      · exact .inl ⟨hbeyond, rfl, rfl⟩
  | token htokens hrest ih =>
      rename_i token mate tokens mates
      have hrest' := ih (token :: behind) (mate :: behind')
      unfold Cursor.collectFrom
      rw [hp.kind htokens, hp.text htokens]
      split
      · exact .inr ⟨rfl, .token htokens hrest, fun h => by cases h⟩
      · dsimp only at hrest' ⊢
        rcases hrest' with ⟨hbeyond, hnone, hahead⟩ | ⟨htext, hrow, hend⟩
        · exact .inl ⟨hbeyond, by rw [hnone]; rfl, hahead⟩
        · exact .inr ⟨by rw [htext], hrow, fun h => hend (Option.map_eq_none_iff.1 h)⟩
  | blank htoken hmate hplaces hgap hgap' hrest _ =>
      unfold Cursor.collectFrom
      rw [if_pos (hstops _ htoken), if_pos (hstops _ hmate)]
      exact .inr ⟨rfl, .blank htoken hmate hplaces hgap hgap' hrest, fun h => by cases h⟩

theorem collectText_of_begun {cursor : Cursor} (h : cursor.Begun) (source : List Char)
    (stops : List TokenKind) :
    cursor.collectText source stops =
      Cursor.collectFrom source stops cursor.behind cursor.ahead := by
  cases cursor with
  | start tokens => exact h.elim
  | on behind token ahead => rfl
  | past behind => rfl

theorem defineNameStops_blank (kind : TokenKind) (h : kind.isTrivia = true) :
    defineNameStops.contains kind = true := by
  revert h
  cases kind <;> decide

/-! ## Parts of declarations -/

/-- What a declaration arrives at: the left parse is lost, or what was agreed holds, and the
parses stand at the same place, or do so once they go on. -/
def Arrives (p : Parallel) (bound bound' : Nat) (agreed : Prop) (left right : ParseState) : Prop :=
  p.Lost left ∨
    (agreed ∧ (p.Abreast bound bound' left right ∨ p.Abreast bound bound' left.next right.next))

variable {agreed other : Prop} {offset offset' : Nat}

theorem Arrives.imp (h : p.Arrives bound bound' agreed left right) (himp : agreed → other) :
    p.Arrives bound bound' other left right :=
  Or.imp_right (And.imp_left himp) h

theorem Meets.arrives (h : p.Meets bound bound' agreed left right) :
    p.Arrives bound bound' agreed left right :=
  Or.imp_right (And.imp_right .inl) h

theorem Arrives.next (hp : p.Lawful) (h : p.Arrives bound bound' agreed left right) :
    p.Meets bound bound' agreed left.next right.next := by
  rcases h with hlost | ⟨hagreed, hstates | hnext⟩
  · exact .inl hlost.next
  · exact (hstates.next hp).imp fun _ => hagreed
  · exact hnext.meets hagreed

theorem Lost.declarationBody (h : p.Lost left) (scan : Scan) :
    p.Lost (left.declarationBody p.left scan).2 := by
  unfold ParseState.declarationBody
  rw [h.isAt, h.token?]
  exact h.congr (ParseState.cursor_reportHere _ _ _)

theorem arrives_declarationBody (hp : p.Lawful) (hscan : p.Twins bound bound' scan twin)
    (h : p.Abreast bound bound' left right) (hsettled : left.cursor.Settled)
    (hsettled' : right.cursor.Settled) :
    p.Arrives bound bound'
      (Option.Rel p.nodes (left.declarationBody p.left scan).1
        (right.declarationBody p.right twin).1)
      (left.declarationBody p.left scan).2 (right.declarationBody p.right twin).2 := by
  unfold ParseState.declarationBody
  rw [h.isAt hp, h.isSome hp]
  split
  · rcases hscan.inside hp bodyStops_significant h with hlost | ⟨hnode, hstates⟩
    · exact .inl hlost
    · exact .inr ⟨.some hnode, .inl hstates⟩
  · have hreported := h.reportHere hp .expectedBody
    dsimp only
    split
    · refine .inr ⟨.none, .inr ?_⟩
      rw [ParseState.next_previous (by rw [ParseState.cursor_reportHere]; exact hsettled),
        ParseState.next_previous (by rw [ParseState.cursor_reportHere]; exact hsettled')]
      exact hreported
    · exact .inr ⟨.none, .inl hreported⟩

theorem isBlob_declarationBody (hscan : p.Twins bound bound' scan twin) (left : ParseState) :
    ∀ body ∈ (left.declarationBody p.left scan).1, body.isBlob = true := by
  unfold ParseState.declarationBody
  split
  · intro body hbody
    obtain rfl := Option.some.inj hbody
    exact hscan.isBlob _ _ _
  · exact fun body hbody => by cases hbody

theorem meets_paramList (hp : p.Lawful) (hscan : p.Twins bound bound' scan twin)
    (h : p.Abreast bound bound' left right) :
    p.Meets bound bound'
      (List.Forall₂ p.nodes (left.paramList p.left scan).1 (right.paramList p.right twin).1)
      (left.paramList p.left scan).2 (right.paramList p.right twin).2 := by
  unfold ParseState.paramList
  rw [h.isAt hp]
  split
  · exact Params.meets_readAll hp hscan h
  · exact h.meets .nil

theorem noBlob_paramList (source : List Char) (scan : Scan) (state : ParseState) :
    ∀ param ∈ (state.paramList source scan).1, param.isBlob = false := by
  unfold ParseState.paramList
  split
  · exact Params.noBlob_readAll source scan state
  · exact fun param hparam => by cases hparam

theorem meets_inheritance (hp : p.Lawful) (h : p.Abreast bound bound' left right) :
    p.Meets bound bound'
      (Option.Rel p.nodes (left.inheritance p.left).1 (right.inheritance p.right).1)
      (left.inheritance p.left).2 (right.inheritance p.right).2 := by
  unfold ParseState.inheritance
  rw [h.isAt hp]
  split
  · dsimp only
    rcases h.next hp with hlost | ⟨-, hparent⟩
    · rw [hlost.token?]
      exact .inl hlost
    rcases hparent.cases hp with ⟨hleft, hright, -⟩ | ⟨token, mate, hleft, hright, htokens⟩
    · rw [hleft, hright]
      exact hparent.meets .none
    · rw [hleft, hright]
      dsimp only
      rw [hp.kind htokens]
      split
      · exact (hparent.next hp).imp fun _ => .some (nodes_bareClassRef hp htokens)
      · exact hparent.meets .none
  · exact h.meets .none

theorem noBlob_inheritance (source : List Char) (state : ParseState) :
    ∀ parent ∈ (state.inheritance source).1, parent.isBlob = false := by
  unfold ParseState.inheritance
  split
  · dsimp only
    split
    · split
      · intro parent hparent
        obtain rfl := Option.some.inj hparent
        rfl
      · exact fun parent hparent => by cases hparent
    · exact fun parent hparent => by cases hparent
  · exact fun parent hparent => by cases hparent

/-! ## Declarations -/

/-- Classes whose names stand at the same place are alike. -/
theorem arrives_classAfterName (hp : p.Lawful) (hscan : p.Twins bound bound' scan twin)
    (h : p.Abreast bound bound' left right) (htokens : p.tokens token mate)
    (hoffset : p.places offset offset') :
    p.Arrives bound bound'
      (p.nodes
        (left.classAfterName p.left scan offset token.offset (token.text p.left)).1
        (right.classAfterName p.right twin offset' mate.offset (mate.text p.right)).1)
      (left.classAfterName p.left scan offset token.offset (token.text p.left)).2
      (right.classAfterName p.right twin offset' mate.offset (mate.text p.right)).2 := by
  have hplaced := ParseState.placed_next h.placed
  have hplaced' := ParseState.placed_next h.placed'
  have hbelow := Nat.lt_of_le_of_lt left.remaining_next_le h.below
  have hbelow' := Nat.lt_of_le_of_lt right.remaining_next_le h.below'
  obtain ⟨hreads, hsettled⟩ := ParseState.reads_paramList hscan.lays hplaced
    (ParseState.settled_next h.placed) (Nat.le_of_lt hbelow)
  obtain ⟨hreads', hsettled'⟩ := ParseState.reads_paramList hscan.lays' hplaced'
    (ParseState.settled_next h.placed') (Nat.le_of_lt hbelow')
  have hparams := (h.next hp).andThen hreads.leads fun _ hnext =>
    meets_paramList hp hscan hnext
  have hnoBlob := noBlob_paramList p.left scan left.next
  unfold ParseState.classAfterName
  dsimp only
  generalize left.next.paramList p.left scan = params at hreads hsettled hparams hnoBlob ⊢
  generalize right.next.paramList p.right twin = params' at hreads' hsettled' hparams ⊢
  obtain ⟨hreads, hsettled⟩ := ParseState.reads_inheritance hreads.placed_after hsettled
  obtain ⟨-, hsettled'⟩ := ParseState.reads_inheritance hreads'.placed_after hsettled'
  have hinherits : p.Meets bound bound' (List.Forall₂ p.nodes params.1 params'.1 ∧
      Option.Rel p.nodes (params.2.inheritance p.left).1 (params'.2.inheritance p.right).1)
      (params.2.inheritance p.left).2 (params'.2.inheritance p.right).2 :=
    hparams.andThen hreads.leads fun hnodes hstates =>
      (meets_inheritance hp hstates).imp fun hparent => ⟨hnodes, hparent⟩
  have hnoParent := noBlob_inheritance p.left params.2
  generalize params.2.inheritance p.left = parent at hsettled hinherits hnoParent ⊢
  generalize params'.2.inheritance p.right = parent' at hsettled' hinherits ⊢
  rcases hinherits with hlost | ⟨⟨hnodes, hparent⟩, hstates⟩
  · exact .inl (hlost.declarationBody scan)
  · rw [hp.text htokens]
    refine (arrives_declarationBody hp hscan hstates hsettled hsettled').imp fun hbody => ?_
    exact hp.builds.classDecl _ hoffset (hp.offset htokens) hnodes hparent hbody hnoBlob
      hnoParent (isBlob_declarationBody hscan parent.2)

theorem arrives_classDecl (hp : p.Lawful) (hscan : p.Twins bound bound' scan twin)
    (h : p.Abreast bound bound' left right) :
    p.Arrives bound bound'
      (List.Forall₂ p.nodes (left.classDecl p.left scan).1 (right.classDecl p.right twin).1)
      (left.classDecl p.left scan).2 (right.classDecl p.right twin).2 := by
  unfold ParseState.classDecl
  dsimp only
  rcases h.next hp with hlost | ⟨-, hnamed⟩
  · rw [hlost.token?]
    exact .inl hlost
  rcases hnamed.cases hp with ⟨hleft, hright, -⟩ | ⟨token, mate, hleft, hright, htokens⟩
  · rw [hleft, hright]
    exact .inr ⟨.nil, .inl hnamed⟩
  · rw [hleft, hright]
    dsimp only
    rw [hp.kind htokens]
    split
    · exact (arrives_classAfterName hp hscan hnamed htokens (h.offset hp)).imp
        fun hnode => .cons hnode .nil
    · refine .inr ⟨.nil, .inr ?_⟩
      rw [ParseState.next_previous (ParseState.settled_next h.placed),
        ParseState.next_previous (ParseState.settled_next h.placed')]
      exact hnamed

/-- Behind its name, a defined type goes on from the same place; without an end of the name the
tokens are used up on both sides. -/
theorem meets_defineName (hp : p.Lawful) (h : p.Abreast bound bound' left right) :
    let read := left.cursor.collectText p.left defineNameStops
    let other := right.cursor.collectText p.right defineNameStops
    (read.1 = none ∧ p.Lost { left with cursor := read.2 }) ∨
      (other.1 = read.1 ∧
        (read.1 = none → p.Meets bound bound' True { left with cursor := read.2 }
          { right with cursor := other.2 }) ∧
        p.Meets bound bound' True { left with cursor := read.2.skipTrivia }
          { right with cursor := other.2.skipTrivia }) := by
  have hleads := left.cursor.leadsTo_collectText p.left defineNameStops
  have hleads' := right.cursor.leadsTo_collectText p.right defineNameStops
  have hrow := h.row.collectFrom hp defineNameStops_blank left.cursor.behind right.cursor.behind
  rw [← collectText_of_begun h.placed.begun, ← collectText_of_begun h.placed'.begun] at hrow
  dsimp only at hrow ⊢
  generalize left.cursor.collectText p.left defineNameStops = read at hleads hrow ⊢
  generalize right.cursor.collectText p.right defineNameStops = other at hleads' hrow ⊢
  have hplaced := hleads.placed h.placed
  have hplaced' := hleads'.placed h.placed'
  have hbelow : read.2.remaining < bound := Nat.lt_of_le_of_lt hleads.remaining_le h.below
  have hbelow' : other.2.remaining < bound' := Nat.lt_of_le_of_lt hleads'.remaining_le h.below'
  rcases hrow with ⟨hbeyond, hnone, hahead⟩ | ⟨htext, hrow, hend⟩
  · exact .inl ⟨hnone, lost_of_ahead hbeyond hplaced.begun hahead⟩
  · refine .inr ⟨htext, fun hnone => ?_, ?_⟩
    · have hahead := hend hnone
      by_cases hbeyond : p.beyond = []
      · rw [hahead] at hrow
        have hahead' := hrow.of_nil.trans hbeyond
        exact meets_of_row [] [] hplaced hplaced' hbelow hbelow' h.reports hahead hahead'
          (.inr (.ended hbeyond.symm))
      · exact .inl (lost_of_ahead hbeyond hplaced.begun hahead)
    · have hskip := read.2.leadsTo_skipTrivia
      have hskip' := other.2.leadsTo_skipTrivia
      exact meets_of_row _ _ (hskip.placed hplaced) (hskip'.placed hplaced')
        (Nat.lt_of_le_of_lt hskip.remaining_le hbelow)
        (Nat.lt_of_le_of_lt hskip'.remaining_le hbelow') h.reports
        (Cursor.ahead_skipTrivia hplaced.begun) (Cursor.ahead_skipTrivia hplaced'.begun)
        (hrow.dropWhile hp)

theorem arrives_defineAfterName (hp : p.Lawful) (hscan : p.Twins bound bound' scan twin)
    (name : List Char) (hoffset : p.places offset offset')
    (hplaced : left.cursor.Placed p.left) (hplaced' : right.cursor.Placed p.right)
    (hbelow : left.remaining < bound) (hbelow' : right.remaining < bound')
    (hsettled : left.cursor.Settled) (hsettled' : right.cursor.Settled)
    (h : p.Meets bound bound' True left right) :
    let params := left.paramList p.left scan
    let params' := right.paramList p.right twin
    let body := params.2.declarationBody p.left scan
    let body' := params'.2.declarationBody p.right twin
    p.Arrives bound bound'
      (p.nodes (Node.defineDecl offset (some name) params.1 body.1)
        (Node.defineDecl offset' (some name) params'.1 body'.1)) body.2 body'.2 := by
  obtain ⟨hreads, hsettled⟩ :=
    ParseState.reads_paramList hscan.lays hplaced hsettled (Nat.le_of_lt hbelow)
  obtain ⟨-, hsettled'⟩ :=
    ParseState.reads_paramList hscan.lays' hplaced' hsettled' (Nat.le_of_lt hbelow')
  have hparams := h.andThen hreads.leads fun _ hstates => meets_paramList hp hscan hstates
  have hnoBlob := noBlob_paramList p.left scan left
  dsimp only
  generalize left.paramList p.left scan = params at hsettled hparams hnoBlob ⊢
  generalize right.paramList p.right twin = params' at hsettled' hparams ⊢
  rcases hparams with hlost | ⟨hnodes, hstates⟩
  · exact .inl (hlost.declarationBody scan)
  · refine (arrives_declarationBody hp hscan hstates hsettled hsettled').imp fun hbody => ?_
    exact hp.builds.defineDecl _ hoffset hnodes hbody hnoBlob
      (isBlob_declarationBody hscan params.2)

theorem arrives_defineDecl (hp : p.Lawful) (hscan : p.Twins bound bound' scan twin)
    (h : p.Abreast bound bound' left right) :
    p.Arrives bound bound'
      (p.nodes (left.defineDecl p.left scan).1 (right.defineDecl p.right twin).1)
      (left.defineDecl p.left scan).2 (right.defineDecl p.right twin).2 := by
  have hsettled := Cursor.settled_skipTrivia_collectText p.left defineNameStops
    (ParseState.settled_next h.placed)
  have hsettled' := Cursor.settled_skipTrivia_collectText p.right defineNameStops
    (ParseState.settled_next h.placed')
  have hleads := left.next.cursor.leadsTo_collectText p.left defineNameStops
  have hleads' := right.next.cursor.leadsTo_collectText p.right defineNameStops
  unfold ParseState.defineDecl
  dsimp only
  rcases h.next hp with hlost | ⟨-, hnext⟩
  · obtain ⟨hbeyond, behind, hcursor⟩ := hlost
    rw [hcursor]
    exact .inl ⟨hbeyond, behind, rfl⟩
  · have hname := meets_defineName hp hnext
    dsimp only at hname
    generalize left.next.cursor.collectText p.left defineNameStops = read
      at hsettled hleads hname ⊢
    generalize right.next.cursor.collectText p.right defineNameStops = other
      at hsettled' hleads' hname ⊢
    obtain ⟨name?, cursor⟩ := read
    obtain ⟨name?', cursor'⟩ := other
    dsimp only at hsettled hsettled' hleads hleads' hname
    rcases hname with ⟨rfl, hlost⟩ | ⟨rfl, hend, hskip⟩
    · exact .inl hlost
    · cases name?' with
      | none =>
          refine ((hend rfl).imp fun _ => ?_).arrives
          exact hp.builds.defineDecl none (h.offset hp) .nil .none
            (fun _ hparam => by cases hparam) (fun _ hbody => by cases hbody)
      | some name =>
          have honward := hleads.trans cursor.leadsTo_skipTrivia
          have honward' := hleads'.trans cursor'.leadsTo_skipTrivia
          exact arrives_defineAfterName hp hscan name (h.offset hp)
            (honward.placed hnext.placed) (honward'.placed hnext.placed')
            (Nat.lt_of_le_of_lt honward.remaining_le hnext.below)
            (Nat.lt_of_le_of_lt honward'.remaining_le hnext.below') hsettled hsettled' hskip

theorem arrives_nodeDecl (hp : p.Lawful) (hscan : p.Twins bound bound' scan twin)
    (h : p.Abreast bound bound' left right) :
    p.Arrives bound bound'
      (p.nodes (left.nodeDecl p.left scan).1 (right.nodeDecl p.right twin).1)
      (left.nodeDecl p.left scan).2 (right.nodeDecl p.right twin).2 := by
  obtain ⟨hsettled, hleads⟩ :=
    NodeNames.settled_readAll p.left (ParseState.settled_next h.placed)
  obtain ⟨hsettled', -⟩ :=
    NodeNames.settled_readAll p.right (ParseState.settled_next h.placed')
  have hread := (h.next hp).andThen hleads fun _ hnext => NodeNames.meets_readAll hp hnext
  unfold ParseState.nodeDecl
  dsimp only
  generalize NodeNames.readAll p.left left.next = read at hsettled hread ⊢
  generalize NodeNames.readAll p.right right.next = other at hsettled' hread ⊢
  rcases hread with hlost | ⟨hnames, hstates⟩
  · exact .inl (hlost.declarationBody scan)
  · rw [hnames]
    refine (arrives_declarationBody hp hscan hstates hsettled hsettled').imp fun hbody => ?_
    exact hp.builds.nodeDecl _ (h.offset hp) hbody (isBlob_declarationBody hscan read.state)

end Parallel

end Manifest
