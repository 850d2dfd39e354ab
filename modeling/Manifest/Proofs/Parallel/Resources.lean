import Manifest.Proofs.Checked.Resources
import Manifest.Proofs.Parallel.Requirements

/-!
# Resources side by side

The attributes of a body are read alike, open ones included: a name on the one side stands for
a name on the other, and values are like stretches.
-/

namespace Manifest

open Parallel (Twins)

variable {p : Parallel} {bound bound' : Nat} {scan twin : Scan} {left right : ParseState}
  {token mate : Token}

namespace ResourceAttributes

structure Alike (p : Parallel) (bound bound' : Nat) (read other : ResourceAttributes) : Prop where
  attributes : List.Forall₂ p.nodes read.attributes other.attributes
  name? : Option.Rel p.tokens read.name? other.name?
  value? : Option.Rel p.nodes read.value? other.value?
  states : p.Abreast bound bound' read.state other.state

variable {read other : ResourceAttributes}

theorem Alike.close (hp : p.Lawful) (h : Alike p bound bound' read other) :
    Alike p bound bound' (read.close p.left) (other.close p.right) := by
  obtain ⟨attributes, name?, value?, state⟩ := read
  obtain ⟨attributes', name?', value?', state'⟩ := other
  obtain ⟨hattributes, hname, hvalue, hstates⟩ := h
  dsimp only at hname
  cases hname with
  | none => exact ⟨hattributes, .none, .none, hstates⟩
  | some hname =>
      refine ⟨?_, .none, .none, hstates⟩
      exact List.rel_append hattributes (.cons (hp.builds.attributeNode hname hvalue) .nil)

theorem Alike.name (hp : p.Lawful) (h : Alike p bound bound' read other)
    (htokens : p.tokens token mate) :
    Alike p bound bound'
      { read with
        name? := if read.name?.isNone && token.namesAttribute then some token else read.name? }
      { other with
        name? :=
          if other.name?.isNone && mate.namesAttribute then some mate else other.name? } := by
  have hnames : mate.namesAttribute = token.namesAttribute := by
    unfold Token.namesAttribute
    rw [hp.kind htokens]
  obtain ⟨attributes, name?, value?, state⟩ := read
  obtain ⟨attributes', name?', value?', state'⟩ := other
  obtain ⟨hattributes, hname, hvalue, hstates⟩ := h
  dsimp only at hname ⊢
  refine ⟨hattributes, ?_, hvalue, hstates⟩
  dsimp only
  rw [hnames]
  cases hname with
  | some hname => exact .some hname
  | none =>
      cases token.namesAttribute with
      | false => exact .none
      | true => exact .some htokens

theorem attributeValueStops_significant : ∀ kind ∈ attributeValueStops, kind.isTrivia = false := by
  decide

theorem paired_step (hp : p.Lawful) (hscan : p.Twins bound bound' scan twin)
    (h : Alike p bound bound' read other) :
    p.Steps ResourceAttributes.state (Alike p bound bound') (step p.left scan read)
      (step p.right twin other) := by
  have hbelow := Nat.lt_of_le_of_lt read.state.remaining_next_le h.states.below
  have hnext := h.states.next hp
  have hvalue := hnext.andThen
    (hscan.lays.here (ParseState.placed_next h.states.placed) hbelow attributeValueStops).leads
    fun _ hstates => hscan.here hp attributeValueStops_significant hstates.toBeside
  unfold step
  rcases h.states.cases hp with ⟨hleft, hright, -⟩ | ⟨token, mate, hleft, hright, htokens⟩
  · rw [hleft, hright]
    exact .done h
  · have hname := h.name hp htokens
    have honward : ∀ {read' other' : ResourceAttributes}, Alike p bound bound' read' other' →
        p.Steps ResourceAttributes.state (Alike p bound bound')
          (.again { read' with state := read.state.next })
          (.again { other' with state := other.state.next }) := by
      intro read' other' halike
      rcases hnext with hlost | ⟨-, hstates⟩
      · exact .lost hlost
      · exact .again { halike with states := hstates }
    rw [hleft, hright]
    dsimp only
    rw [hp.kind htokens]
    split
    · exact .done h
    · split
      · rcases hvalue with hlost | ⟨hvalue, hstates⟩
        · exact .lost hlost
        · exact .again { hname with value? := .some hvalue, states := hstates }
      · split
        · exact honward (hname.close hp)
        · exact honward hname

theorem meets_readAll (hp : p.Lawful) (hscan : p.Twins bound bound' scan twin)
    (h : p.Abreast bound bound' left right) :
    p.Meets bound bound'
      (List.Forall₂ p.nodes (readAll p.left scan left).attributes
        (readAll p.right twin right).attributes)
      (readAll p.left scan left).state (readAll p.right twin right).state := by
  have hbelow := Nat.lt_of_le_of_lt left.remaining_next_le h.below
  refine (h.next hp).andThen (ordered_readAll hscan.lays (Nat.le_of_lt hbelow) h.placed).1
    fun _ hnext => ?_
  have hread := Parallel.steps_iterate ResourceAttributes.state ResourceAttributes.state
    (fun _ _ hread => paired_step hp hscan hread)
    (fun read hnone => by unfold step; rw [hnone])
    (fun _ _ _ hread =>
      remaining_step hscan.lays (Nat.le_of_lt hread.states.below) hread.states.placed)
    (fun _ _ _ hread =>
      remaining_step hscan.lays' (Nat.le_of_lt hread.states.below') hread.states.placed')
    ⟨[], none, none, left.next⟩ ⟨[], none, none, right.next⟩ ⟨.nil, .none, .none, hnext⟩
  unfold readAll
  dsimp only
  rw [state_close, state_close]
  rcases hread with hlost | halike
  · exact .inl hlost
  · exact .inr ⟨(halike.close hp).attributes, halike.states⟩

end ResourceAttributes

/-! ## Resources -/

namespace Parallel

variable {offset offset' : Nat} {type : List Char} {title? title?' : Option Node}

theorem bodyStops_significant : ∀ kind ∈ bodyStops, kind.isTrivia = false := by
  decide

theorem meets_resourceBody (hp : p.Lawful) (hscan : p.Twins bound bound' scan twin)
    (h : p.Abreast bound bound' left right) (type : List Char) (hoffset : p.places offset offset')
    (htitle : Option.Rel p.nodes title? title?') :
    p.Meets bound bound'
      (p.nodes (left.resourceBody p.left scan type offset title?).1
        (right.resourceBody p.right twin type offset' title?').1)
      (left.resourceBody p.left scan type offset title?).2
      (right.resourceBody p.right twin type offset' title?').2 := by
  have hread := ResourceAttributes.meets_readAll hp hscan h
  unfold ParseState.resourceBody
  dsimp only
  generalize ResourceAttributes.readAll p.left scan left = read at hread
  generalize ResourceAttributes.readAll p.right twin right = other at hread
  rcases hread with hlost | ⟨hattributes, hstates⟩
  · exact .inl hlost
  · refine hstates.meets (hp.builds.resource type hoffset htitle hattributes ?_)
    rcases hstates.cases hp with ⟨hleft, hright, -⟩ | ⟨token, mate, hleft, hright, htokens⟩
    · rw [hleft, hright]
      exact .none
    · rw [hleft, hright]
      exact .some (hp.stop htokens)

/-- From the end of the left text, a scan goes nowhere. -/
theorem Twins.lost_here (h : p.Twins bound bound' scan twin) (hlost : p.Lost left)
    (hplaced : left.cursor.Placed p.left) (hbelow : left.remaining < bound)
    (stops : List TokenKind) : p.Lost (scan.here p.left stops left).2 :=
  hlost.leads (h.lays.here hplaced hbelow stops).leads

theorem meets_resourceTitle (hp : p.Lawful) (hscan : p.Twins bound bound' scan twin)
    (h : p.Abreast bound bound' left right) (type : List Char) (hleft : left.token? = some token)
    (htokens : p.tokens token mate) :
    p.Meets bound bound'
      (Option.Rel p.nodes (left.resourceTitle p.left scan type token).1
        (right.resourceTitle p.right twin type mate).1)
      (left.resourceTitle p.left scan type token).2
      (right.resourceTitle p.right twin type mate).2 := by
  have hstring : p.nodes (Node.string token.offset (token.text p.left))
      (Node.string mate.offset (mate.text p.right)) := by
    rw [hp.text htokens]
    exact hp.builds.string _ (hp.offset htokens)
  unfold ParseState.resourceTitle
  rw [hp.kind htokens]
  split
  · split
    · exact h.meets (.some (nodes_quotedClassRef hp htokens))
    · exact h.meets (.some hstring)
  · exact h.meets (.some hstring)
  · exact h.meets (.some hstring)
  · rw [hp.text htokens]
    exact h.meets (.some (hp.builds.plainVariable _ (hp.offset htokens)))
  · rcases h.moveNext with hlost | hmove
    · have hle := left.leadsTo_moveNext.offset_le h.placed
      rw [show left.cursor.offset p.left = token.offset from Cursor.offset_of_token? hleft] at hle
      have hbelow := Nat.lt_of_le_of_lt left.remaining_moveNext_le h.below
      have hstretch := hscan.lays token.offset indexStops left.moveNext hbelow
        (ParseState.placed_moveNext h.placed) hle
      exact .inl (hlost.leads hstretch.leads)
    · exact (hscan.meets indexStops_significant (hp.offset htokens) hmove).imp .some
  · exact h.meets .none

theorem meets_restOfBody (hp : p.Lawful) (hscan : p.Twins bound bound' scan twin)
    (h : p.Abreast bound bound' left right) :
    p.Meets bound bound'
      (List.Forall₂ p.nodes (left.restOfBody p.left scan).1 (right.restOfBody p.right twin).1)
      (left.restOfBody p.left scan).2 (right.restOfBody p.right twin).2 :=
  (hscan.here hp bodyStops_significant h.toBeside).imp fun hnode => .cons hnode .nil

/-- Resources from the same place on are alike, well formed or not. -/
theorem meets_resource (hp : p.Lawful) (hscan : p.Twins bound bound' scan twin)
    (h : p.Abreast bound bound' left right) (type : List Char)
    (hoffset : p.places offset offset') :
    p.Meets bound bound'
      (List.Forall₂ p.nodes (left.resource p.left scan type offset).1
        (right.resource p.right twin type offset').1)
      (left.resource p.left scan type offset).2 (right.resource p.right twin type offset').2 := by
  unfold ParseState.resource
  split
  · exact (meets_resourceBody hp hscan h type hoffset .none).imp fun hnode => .cons hnode .nil
  · dsimp only
    rcases h.next hp with hlost | ⟨-, hfirst⟩
    · rw [hlost.token?]
      exact .inl hlost
    rcases hfirst.cases hp with ⟨hleft, hright, -⟩ | ⟨token, mate, hleft, hright, htokens⟩
    · rw [hleft, hright]
      exact hfirst.meets .nil
    · have hmove := Nat.lt_of_le_of_lt left.next.remaining_moveNext_le hfirst.below
      have hleads := (ParseState.reads_resourceTitle type hscan.lays hfirst.placed hleft hmove).1
      have htitle := meets_resourceTitle hp hscan hfirst type hleft htokens
      rw [hleft, hright]
      dsimp only
      generalize left.next.resourceTitle p.left scan type token = titled at hleads htitle ⊢
      generalize right.next.resourceTitle p.right twin type mate = titled' at htitle ⊢
      obtain ⟨title?, state⟩ := titled
      obtain ⟨title?', state'⟩ := titled'
      rcases htitle with hlost | ⟨htitle, hstates⟩
      · cases title? with
        | none =>
            -- what is scanned in place of the body ends with the left text
            refine .inl (hscan.lost_here (hlost.congr (ParseState.cursor_report _ _ _)) ?_ ?_ _)
            · rw [ParseState.cursor_report]
              exact hleads.placed hfirst.placed
            · unfold ParseState.remaining
              rw [ParseState.cursor_report]
              exact Nat.lt_of_le_of_lt hleads.remaining_le hfirst.below
        | some title =>
            dsimp only at hlost ⊢
            rw [hlost.next.isAt, hlost.next.token?]
            exact .inl (hlost.next.congr (ParseState.cursor_reportHere _ _ _))
      · dsimp only at htitle hstates
        cases htitle with
        | none => exact meets_restOfBody hp hscan (hstates.report hp htokens _)
        | some htitle =>
            dsimp only
            rcases hstates.next hp with hlost | ⟨-, hcolon⟩
            · rw [hlost.isAt, hlost.token?]
              exact .inl (hlost.congr (ParseState.cursor_reportHere _ _ _))
            · rw [hcolon.isAt hp, hcolon.isSome hp]
              split
              · exact (meets_resourceBody hp hscan hcolon type hoffset (.some htitle)).imp
                  fun hnode => .cons hnode .nil
              · split
                · exact meets_restOfBody hp hscan (hcolon.reportHere hp _)
                · exact (hcolon.reportHere hp _).meets .nil

end Parallel

end Manifest
