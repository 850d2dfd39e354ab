import Manifest.Proofs.Checked.Requirements
import Manifest.Proofs.Parallel.Twins

/-!
# Requirements side by side

A class reference looks ahead, and what it looked at may be read again.  Where the look-ahead
comes to the end of the left text, no closing bracket is ahead, so that the stretch that is
read in its place comes to the end as well.
-/

namespace Manifest

theorem Cursor.ahead_cases {cursor : Cursor} {token : Token} (hbegun : cursor.Begun)
    (h : token ∈ cursor.ahead) :
    cursor.token? = some token ∨ token.isTrivia = true ∨ token ∈ cursor.next.ahead := by
  rw [token?_of_begun hbegun, ahead_next hbegun]
  cases hahead : cursor.ahead with
  | nil =>
      rw [hahead] at h
      cases h
  | cons first rest =>
      rw [hahead] at h
      rcases List.mem_cons.1 h with rfl | hrest
      · exact .inl rfl
      · have hsplit := List.takeWhile_append_dropWhile (p := Token.isTrivia) (l := rest)
        rw [← hsplit] at hrest
        rcases List.mem_append.1 hrest with hblank | hlater
        · exact .inr (.inl (List.all_eq_true.1 List.all_takeWhile token hblank))
        · exact .inr (.inr hlater)

namespace Parallel

variable {p : Parallel} {bound bound' : Nat} {scan twin : Scan}
  {left right : ParseState}
  {token mate : Token}

/-! ## Class references -/

theorem nodes_quotedClassRef (hp : p.Lawful) (h : p.tokens token mate) :
    p.nodes (ParseState.quotedClassRef p.left token) (ParseState.quotedClassRef p.right mate) := by
  unfold ParseState.quotedClassRef
  rw [hp.text h]
  exact hp.builds.classRef _ (hp.offset h) (hp.offsetAfter h)

theorem nodes_bareClassRef (hp : p.Lawful) (h : p.tokens token mate) :
    p.nodes (Node.classRef token.offset token.offset (token.text p.left))
      (Node.classRef mate.offset mate.offset (mate.text p.right)) := by
  rw [hp.text h]
  exact hp.builds.classRef _ (hp.offset h) (hp.offset h)

/-- A class reference that looked ahead to the end of the left text. -/
structure LostReference (p : Parallel) (left : ParseState) (read : Option Node × ParseState) :
    Prop where
  none : read.1 = none
  lost : p.Lost read.2
  unclosed : ∀ token ∈ left.next.cursor.ahead, token.kind ≠ .rightBracket
  bare : left.next.isAt .leftBracket = false → p.Lost left.next

theorem Lost.malformedReference (h : p.Lost left) (report : Bool) :
    p.Lost (left.malformedReference p.left report).2 :=
  h.congr (ParseState.cursor_malformedReference _ _ _)

theorem Abreast.malformedReference (hp : p.Lawful) (h : p.Abreast bound bound' left right)
    (report : Bool) :
    Option.Rel p.nodes (left.malformedReference p.left report).1
        (right.malformedReference p.right report).1 ∧
      p.Abreast bound bound' (left.malformedReference p.left report).2
        (right.malformedReference p.right report).2 := by
  unfold ParseState.malformedReference
  cases report with
  | true => exact ⟨.none, h.reportHere hp _⟩
  | false => exact ⟨.none, h⟩

theorem ne_rightBracket_of_isTrivia (h : token.isTrivia = true) : token.kind ≠ .rightBracket := by
  intro hkind
  unfold Token.isTrivia at h
  rw [hkind] at h
  cases h

theorem unclosed_of_next (hbegun : left.cursor.Begun)
    (hcurrent : ∀ token, left.token? = some token → token.kind ≠ .rightBracket)
    (hnext : ∀ token ∈ left.next.cursor.ahead, token.kind ≠ .rightBracket) :
    ∀ token ∈ left.cursor.ahead, token.kind ≠ .rightBracket := by
  intro token htoken
  rcases Cursor.ahead_cases hbegun htoken with hunder | hblank | hlater
  · exact hcurrent token hunder
  · exact ne_rightBracket_of_isTrivia hblank
  · exact hnext token hlater

theorem Lost.unclosed (h : p.Lost left) :
    ∀ token ∈ left.cursor.ahead, token.kind ≠ .rightBracket := by
  obtain ⟨-, behind, hcursor⟩ := h
  rw [hcursor]
  exact fun token htoken => by cases htoken

theorem kind_of_isAt {kind : TokenKind} (h : left.isAt kind = true)
    (htoken : left.token? = some token) : token.kind = kind := by
  obtain ⟨other, hother, hkind⟩ := ParseState.token?_of_isAt h
  obtain rfl : token = other := Option.some.inj (htoken.symm.trans hother)
  exact hkind

theorem Abreast.classReference (hp : p.Lawful) (h : p.Abreast bound bound' left right)
    (report : Bool) :
    p.LostReference left (left.classReference p.left report) ∨
      Option.Rel p.nodes (left.classReference p.left report).1
          (right.classReference p.right report).1 ∧
        p.Abreast bound bound' (left.classReference p.left report).2
          (right.classReference p.right report).2 := by
  have hplaced := ParseState.placed_next h.placed
  -- each of three tokens may be the one that the left text lacks; none before it is a closing
  -- bracket, and the reference is malformed
  unfold ParseState.classReference
  dsimp only
  rcases h.next hp with hlost | ⟨-, hbracket⟩
  · rw [hlost.isAt]
    refine .inl ⟨rfl, hlost.malformedReference report, hlost.unclosed, fun _ => hlost⟩
  · rw [hbracket.isAt hp]
    split
    · rename_i hat
      have hopen : ∀ token, left.next.token? = some token → token.kind ≠ .rightBracket := by
        intro token htoken
        rw [kind_of_isAt hat htoken]
        decide
      have hbare : left.next.isAt .leftBracket = false → p.Lost left.next := by
        intro hnot
        rw [hat] at hnot
        cases hnot
      rcases hbracket.next hp with hlost | ⟨-, hname⟩
      · rw [hlost.token?]
        exact .inl ⟨rfl, hlost.malformedReference report,
          unclosed_of_next hplaced.begun hopen hlost.unclosed, hbare⟩
      · rcases hname.cases hp with ⟨hleft, hright, -⟩ | ⟨token, mate, hleft, hright, htokens⟩
        · rw [hleft, hright]
          exact .inr (hname.malformedReference hp report)
        · rw [hleft, hright]
          dsimp only
          rw [hp.kind htokens]
          split
          · rename_i hstring
            rcases hname.next hp with hlost | ⟨-, hclosing⟩
            · rw [hlost.isAt]
              have hquoted : ∀ current, left.next.next.token? = some current →
                  current.kind ≠ .rightBracket := by
                intro current hcurrent
                obtain rfl := Option.some.inj (hleft.symm.trans hcurrent)
                rw [hstring]
                decide
              have hbehind :=
                unclosed_of_next (ParseState.placed_next hplaced).begun hquoted hlost.unclosed
              exact .inl ⟨rfl, hlost.malformedReference report,
                unclosed_of_next hplaced.begun hopen hbehind, hbare⟩
            · rw [hclosing.isAt hp]
              split
              · exact .inr ⟨.some (nodes_quotedClassRef hp htokens), hclosing⟩
              · exact .inr (hclosing.malformedReference hp report)
          · exact .inr (hname.malformedReference hp report)
    · exact .inr (hbracket.malformedReference hp report)

theorem indexStops_significant : ∀ kind ∈ indexStops, kind.isTrivia = false := by
  decide

/-- Where a class reference is lost, the stretch in its brackets is lost, too. -/
theorem LostReference.inside {read : Option Node × ParseState} (h : p.LostReference left read)
    (hscan : p.Twins bound bound' scan twin) (hplaced : left.cursor.Placed p.left)
    (hbelow : left.next.remaining < bound) {bracket : ParseState}
    (hcursor : bracket.cursor = left.next.cursor) :
    p.Lost (scan.inside p.left indexStops bracket).2 := by
  have hbracket : bracket.cursor.Placed p.left := by
    rw [hcursor]
    exact ParseState.placed_next hplaced
  have hremaining : bracket.remaining < bound := by
    unfold ParseState.remaining
    rw [hcursor]
    exact hbelow
  refine hscan.lost_inside h.lost.1 hbracket hremaining fun token htoken => ?_
  rw [hcursor] at htoken
  have hkind := h.unclosed token htoken
  simpa [indexStops] using hkind

end Parallel

/-! ## Names of requirements -/

namespace RequirementNames

open Parallel (nodes_quotedClassRef nodes_bareClassRef indexStops_significant)

def Alike (p : Parallel) (bound bound' : Nat) (read other : RequirementNames) : Prop :=
  List.Forall₂ p.nodes read.names other.names ∧
    p.Abreast bound bound' read.state other.state

variable {p : Parallel} {bound bound' : Nat} {scan twin : Scan}
  {left right : ParseState}
  {read other : RequirementNames} {names names' : List Node} {node mate : Node}

theorem rel_concat (h : List.Forall₂ p.nodes names names') (hnode : p.nodes node mate) :
    List.Forall₂ p.nodes (names ++ [node]) (names' ++ [mate]) :=
  List.rel_append h (.cons hnode .nil)

theorem astray_afterName (h : p.Lost left.next) (names : List Node)
    (progress : Progress RequirementNames) :
    p.Steps RequirementNames.state (Alike p bound bound') (afterName names left) progress := by
  unfold afterName
  dsimp only
  rw [h.isAt]
  exact .failed h

theorem paired_afterName (hp : p.Lawful)
    (h : p.Meets bound bound' (List.Forall₂ p.nodes names names') left.next right.next) :
    p.Steps RequirementNames.state (Alike p bound bound') (afterName names left)
      (afterName names' right) := by
  rcases h with hlost | ⟨hnames, hstates⟩
  · exact astray_afterName hlost _ _
  · unfold afterName
    dsimp only
    rw [hstates.isAt hp]
    split
    · rcases hstates.next hp with hlost | ⟨-, hnext⟩
      · exact .lost hlost
      · exact .again ⟨hnames, hnext⟩
    · exact .done ⟨hnames, hstates⟩

theorem paired_ofClassType (hp : p.Lawful) (hscan : p.Twins bound bound' scan twin)
    (h : Alike p bound bound' read other) :
    p.Steps RequirementNames.state (Alike p bound bound') (ofClassType p.left scan read)
      (ofClassType p.right twin other) := by
  have hreference := h.2.classReference hp true
  have hnext := h.2.next hp
  unfold ofClassType
  generalize read.state.classReference p.left true = reference at hreference ⊢
  generalize other.state.classReference p.right true = reference' at hreference ⊢
  obtain ⟨reference?, failed⟩ := reference
  obtain ⟨reference?', failed'⟩ := reference'
  rcases hreference with hlost | ⟨hreference, hstates⟩
  · obtain rfl : reference? = none := hlost.none
    dsimp only
    split
    · have hindex : p.Lost (scan.inside p.left indexStops
          (ParseState.next { failed with cursor := read.state.cursor })).2 :=
        hlost.inside hscan h.2.placed
          (Nat.lt_of_le_of_lt read.state.remaining_next_le h.2.below) rfl
      exact astray_afterName hindex.next _ _
    · rename_i hbracket
      have hbare := hlost.bare (Bool.eq_false_iff.2 hbracket)
      exact .failed (hbare.congr rfl)
  · cases hreference with
    | some hnode =>
        exact paired_afterName hp ((hstates.next hp).imp fun _ => rel_concat h.1 hnode)
    | none =>
        dsimp only
        rcases hnext with hlost | ⟨-, hnext⟩
        · have hbracket : p.Lost (ParseState.next { failed with cursor := read.state.cursor }) :=
            hlost.congr rfl
          rw [hbracket.isAt]
          exact .failed hbracket
        · have hbracket : p.Abreast bound bound'
              (ParseState.next { failed with cursor := read.state.cursor })
              (ParseState.next { failed' with cursor := other.state.cursor }) :=
            hnext.congr rfl rfl hstates.reports
          rw [hbracket.isAt hp]
          split
          · have hindex := hscan.inside hp indexStops_significant hbracket
            exact paired_afterName hp ((hindex.imp fun hnode => rel_concat h.1 hnode).next hp)
          · exact .done ⟨h.1, hbracket⟩

theorem paired_step (hp : p.Lawful) (hscan : p.Twins bound bound' scan twin)
    (h : Alike p bound bound' read other) :
    p.Steps RequirementNames.state (Alike p bound bound') (step p.left scan read)
      (step p.right twin other) := by
  have hname : ∀ {node mate : Node}, p.nodes node mate →
      p.Steps RequirementNames.state (Alike p bound bound')
        (afterName (read.names ++ [node]) read.state)
        (afterName (other.names ++ [mate]) other.state) := fun hnode =>
    paired_afterName hp ((h.2.next hp).imp fun _ => rel_concat h.1 hnode)
  unfold step
  rcases h.2.cases hp with ⟨hleft, hright, -⟩ | ⟨token, mate, hleft, hright, htokens⟩
  · rw [hleft, hright]
    exact .done h
  · rw [hleft, hright]
    dsimp only
    rw [hp.kind htokens]
    split
    · exact hname (nodes_quotedClassRef hp htokens)
    · split
      · have hbare := nodes_bareClassRef hp htokens
        rw [hp.text htokens] at hbare ⊢
        split
        · exact paired_ofClassType hp hscan h
        · exact hname hbare
      · exact .done h

theorem meets_readAll (hp : p.Lawful) (hscan : p.Twins bound bound' scan twin)
    (h : p.Abreast bound bound' left right) :
    p.Meets bound bound'
      (List.Forall₂ p.nodes (readAll p.left scan left).names (readAll p.right twin right).names)
      (readAll p.left scan left).state (readAll p.right twin right).state :=
  Parallel.steps_iterate RequirementNames.state RequirementNames.state
    (fun _ _ hread => paired_step hp hscan hread)
    (fun read hnone => by unfold step; rw [hnone])
    (fun _ _ _ hread => remaining_step hscan.lays (Nat.le_of_lt hread.2.below) hread.2.placed)
    (fun _ _ _ hread => remaining_step hscan.lays' (Nat.le_of_lt hread.2.below') hread.2.placed')
    ⟨[], left⟩ ⟨[], right⟩ ⟨.nil, h⟩

end RequirementNames

/-! ## Requirements -/

namespace Parallel

open RequirementNames (rel_concat)

variable {p : Parallel} {bound bound' limit limit' : Nat} {scan twin : Scan}
  {left right : ParseState}
  {token mate : Token}

theorem meets_bracketedNames (hp : p.Lawful) (hscan : p.Twins bound bound' scan twin)
    {closing : TokenKind} (hclosing : closing.isTrivia = false)
    (h : p.Abreast bound bound' left right) :
    p.Meets bound bound'
      (List.Forall₂ p.nodes (left.bracketedNames p.left scan closing).1
        (right.bracketedNames p.right twin closing).1)
      (left.bracketedNames p.left scan closing).2
      (right.bracketedNames p.right twin closing).2 := by
  have hbelow := Nat.lt_of_le_of_lt left.remaining_next_le h.below
  have hleads := (RequirementNames.reads_readAll hscan.lays (Nat.le_of_lt hbelow)
    (ParseState.placed_next h.placed)).leads
  have hread := (h.next hp).andThen hleads fun _ hnext =>
    RequirementNames.meets_readAll hp hscan hnext
  unfold ParseState.bracketedNames
  dsimp only
  generalize RequirementNames.readAll p.left scan left.next = read at hread
  generalize RequirementNames.readAll p.right twin right.next = other at hread
  rcases hread with hlost | ⟨hnames, hstates⟩
  · rw [hlost.isAt, hlost.token?]
    exact .inl hlost
  · rw [hstates.isAt hp, hstates.isSome hp]
    split
    · have hstops : ∀ kind ∈ [closing], kind.isTrivia = false :=
        List.forall_mem_singleton.2 hclosing
      have hrest := hscan.here hp hstops hstates.toBeside
      exact hrest.imp fun hnode => rel_concat hnames hnode
    · exact hstates.meets hnames

theorem listClosing_significant {kind closing : TokenKind}
    (h : ParseState.listClosing? kind = some closing) : closing.isTrivia = false := by
  unfold ParseState.listClosing? at h
  split at h
  · cases h
    rfl
  · cases h
    rfl
  · cases h

theorem meets_requirementNames (hp : p.Lawful) (hscan : p.Twins bound bound' scan twin)
    (h : p.Abreast limit limit' left right) (hbelow : left.next.remaining < bound)
    (hbelow' : right.next.remaining < bound') :
    p.Meets bound bound'
      (List.Forall₂ p.nodes (left.requirementNames p.left scan).1
          (right.requirementNames p.right twin).1 ∧
        (right.requirementNames p.right twin).2.1 = (left.requirementNames p.left scan).2.1)
      (left.requirementNames p.left scan).2.2 (right.requirementNames p.right twin).2.2 := by
  unfold ParseState.requirementNames
  dsimp only
  rcases (h.next hp).bounded hbelow hbelow' with hlost | ⟨-, hnext⟩
  · rw [hlost.kind?]
    exact .inl hlost
  · rw [hnext.kind? hp]
    split
    · exact hnext.meets ⟨.nil, rfl⟩
    · split
      · exact (RequirementNames.meets_readAll hp hscan hnext).imp fun hnames => ⟨hnames, rfl⟩
      · split
        · exact hnext.meets ⟨.nil, rfl⟩
        · rename_i closing hclosing
          have hnames := meets_bracketedNames hp hscan (listClosing_significant hclosing) hnext
          rcases hnames with hlost | ⟨hnames, hstates⟩
          · exact .inl hlost
          · exact hstates.meets ⟨hnames, hstates.isSome hp⟩

theorem meets_requirementAt (hp : p.Lawful) (hscan : p.Twins bound bound' scan twin)
    (h : p.Abreast limit limit' left right) (hbelow : left.next.remaining < bound)
    (hbelow' : right.next.remaining < bound') (htokens : p.tokens token mate) :
    p.Meets bound bound'
      (p.nodes (left.requirementAt p.left scan token).1
          (right.requirementAt p.right twin mate).1 ∧
        (right.requirementAt p.right twin mate).2.1 =
          (left.requirementAt p.left scan token).2.1)
      (left.requirementAt p.left scan token).2.2
      (right.requirementAt p.right twin mate).2.2 := by
  unfold ParseState.requirementAt
  rw [hp.text htokens]
  refine (meets_requirementNames hp hscan h hbelow hbelow').imp fun hnames => ⟨?_, hnames.2⟩
  exact hp.builds.functionCall _ (hp.offset htokens) hnames.1

end Parallel

end Manifest
