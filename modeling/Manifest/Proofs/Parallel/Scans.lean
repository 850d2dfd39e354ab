import Manifest.Proofs.Checked.Scans
import Manifest.Proofs.Parallel.Branches

/-!
# Scans side by side

What begins with the token under the cursor is taken out alike on both sides, or kept as the
same raw text.  A scan inside of another one has fewer tokens left; so scans of any two depths
are twins where there are no more tokens than that.
-/

namespace Manifest

variable {p : Parallel} {bound bound' limit limit' : Nat} {scan twin : Scan}
  {left right : ParseState} {token mate : Token} {stops : List TokenKind}

namespace Scanning

structure Matches (p : Parallel) (scanning other : Scanning) : Prop where
  nesting : other.nesting = scanning.nesting
  raw : other.raw = scanning.raw
  children : List.Forall₂ p.nodes scanning.children other.children

/-- The left scan is lost, or both have collected the same and stand at the same place. -/
def Grows (p : Parallel) (limit limit' : Nat) (scanning other : Scanning) : Prop :=
  p.Lost scanning.state ∨
    (Matches p scanning other ∧ p.Beside limit limit' scanning.state other.state)

variable {scanning other : Scanning} {nodes nodes' : List Node}

/-! ## Ways to go on -/

theorem Matches.keep (h : Matches p scanning other) (text : List Char) :
    Matches p (scanning.keep text) (other.keep text) where
  nesting := h.nesting
  raw := congrArg (· ++ [text]) h.raw
  children := h.children

theorem Matches.add (h : Matches p scanning other) (hnodes : List.Forall₂ p.nodes nodes nodes') :
    Matches p (scanning.add nodes) (other.add nodes') where
  nesting := h.nesting
  raw := h.raw
  children := List.rel_append h.children hnodes

theorem Matches.addNode (h : Matches p scanning other) {node node' : Node}
    (hnode : p.nodes node node') : Matches p (scanning.add [node]) (other.add [node']) :=
  h.add (.cons hnode .nil)

theorem grows_stay
    (h : p.Meets bound bound' (Matches p scanning other) left right) :
    Grows p (bound + 1) (bound' + 1) (scanning.stay left) (other.stay right) := by
  rcases h with hlost | ⟨hmatches, hstates⟩
  · exact .inl hlost
  · refine .inr ⟨⟨hmatches.nesting, hmatches.raw, hmatches.children⟩, ?_⟩
    exact (hstates.mono (Nat.le_succ _) (Nat.le_succ _)).toBeside

theorem grows_advance
    (h : p.Meets bound bound' (Matches p scanning other) left.next right.next) :
    Grows p (bound + 1) (bound' + 1) (scanning.advance left) (other.advance right) :=
  grows_stay h

theorem Matches.endsAt (h : Matches p scanning other) (stops : List TokenKind)
    (kind : TokenKind) : other.endsAt stops kind = scanning.endsAt stops kind := by
  unfold Scanning.endsAt
  rw [h.nesting]

/-! ## Variables, calls and indices -/

theorem grows_variableAt (hp : p.Lawful) (h : Matches p scanning other)
    (hnext : p.Meets bound bound' True scanning.state.next other.state.next)
    (htokens : p.tokens token mate) :
    Grows p (bound + 1) (bound' + 1) (scanning.variableAt p.left token)
      (other.variableAt p.right mate) := by
  unfold variableAt
  dsimp only
  rcases hnext with hlost | ⟨-, hnext⟩
  · rw [hlost.isAt]
    exact .inl hlost
  · rw [hnext.isAt hp, hp.text htokens]
    split
    · have hnode := hp.builds.plainDefinition (token.text p.left) (hp.offset htokens)
      exact grows_advance ((hnext.next hp).imp fun _ => h.addNode hnode)
    · have hnode := hp.builds.plainVariable (token.text p.left) (hp.offset htokens)
      exact grows_stay (hnext.meets (h.addNode hnode))

theorem callStops_significant : ∀ kind ∈ callStops, kind.isTrivia = false := by
  decide

theorem grows_callAt (hp : p.Lawful) (hscan : p.Twins bound bound' scan twin)
    (h : Matches p scanning other) (hnext : p.Meets bound bound' True left.next right.next)
    (htokens : p.tokens token mate) :
    Grows p (bound + 1) (bound' + 1) (scanning.callAt p.left scan token left)
      (other.callAt p.right twin mate right) := by
  unfold callAt
  dsimp only
  rcases hnext with hlost | ⟨-, hnext⟩
  · rw [hlost.isAt]
    exact .inl hlost
  · rw [hnext.isAt hp, hp.text htokens]
    split
    · have harguments := hscan.inside hp callStops_significant hnext
      refine grows_advance ((harguments.imp fun hnode => h.addNode ?_).next hp)
      exact hp.builds.functionCall _ (hp.offset htokens) (.cons hnode .nil)
    · have hnode := hp.builds.functionCall (token.text p.left) (hp.offset htokens) .nil
      exact grows_advance (hnext.meets (h.addNode hnode))

theorem not_name_of_isTrivia (h : token.isTrivia = true) :
    ¬ (token.kind = .identifier ∨ token.kind.category = .function) := by
  intro hname
  rw [Token.significant_of_name hname] at h
  cases h

theorem grows_dotAt (hp : p.Lawful) (hscan : p.Twins bound bound' scan twin)
    (h : Matches p scanning other)
    (hstates : p.Abreast (bound + 1) (bound' + 1) scanning.state other.state) :
    Grows p (bound + 1) (bound' + 1) (scanning.dotAt p.left scan)
      (other.dotAt p.right twin) := by
  unfold dotAt
  dsimp only
  rcases hstates.moveNext with hlost | hnamed
  · rw [hlost.token?]
    exact .inl hlost
  · have hkept := h.keep ['.']
    rcases hnamed.cases hp with ⟨hleft, hright, -⟩ | ⟨token, mate, hleft, hright, htokens⟩ |
      ⟨token, mate, hleft, hright, htoken, hmate, -⟩
    · rw [hleft, hright]
      exact .inr ⟨⟨h.nesting, h.raw, h.children⟩, hnamed⟩
    · have hcall := grows_callAt hp hscan h (hnamed.next_lt hp hleft) htokens
      rw [hleft, hright]
      dsimp only
      rw [hp.kind htokens]
      split
      · exact hcall
      · exact .inr ⟨⟨hkept.nesting, hkept.raw, hkept.children⟩, hnamed⟩
    · rw [hleft, hright]
      dsimp only
      rw [if_neg (not_name_of_isTrivia htoken), if_neg (not_name_of_isTrivia hmate)]
      exact .inr ⟨⟨hkept.nesting, hkept.raw, hkept.children⟩, hnamed⟩

theorem grows_index (hp : p.Lawful) (hscan : p.Twins bound bound' scan twin)
    (h : Matches p scanning other)
    (hnext : p.Abreast bound bound' scanning.state.next other.state.next)
    (htokens : p.tokens token mate) (name : List Char) :
    let index := scan.inside p.left indexStops scanning.state.next
    let index' := twin.inside p.right indexStops other.state.next
    Grows p (bound + 1) (bound' + 1)
      ((scanning.add [⟨token.offset, none, .typeReference name, [index.1]⟩]).advance index.2)
      ((other.add [⟨mate.offset, none, .typeReference name, [index'.1]⟩]).advance index'.2) := by
  have hindex := hscan.inside hp Parallel.indexStops_significant hnext
  refine grows_advance ((hindex.imp fun hnode => h.addNode ?_).next hp)
  exact hp.builds.typeReference _ (hp.offset htokens) hnode

theorem grows_applied? (hp : p.Lawful) (hscan : p.Twins bound bound' scan twin)
    (h : Matches p scanning other)
    (hstates : p.Abreast (bound + 1) (bound' + 1) scanning.state other.state)
    (hnext : p.Abreast bound bound' scanning.state.next other.state.next)
    (htokens : p.tokens token mate) :
    (∃ lost, scanning.applied? p.left scan token = some lost ∧ p.Lost lost.state) ∨
      Option.Rel (Grows p (bound + 1) (bound' + 1)) (scanning.applied? p.left scan token)
        (other.applied? p.right twin mate) := by
  have hindex := grows_index hp hscan h hnext htokens (token.text p.left)
  unfold applied?
  dsimp only
  rw [hnext.isAt hp, hnext.isAt hp, hp.text htokens]
  split
  · have harguments := hscan.inside hp callStops_significant hnext
    refine .inr (.some (grows_advance ((harguments.imp fun hnode => h.addNode ?_).next hp)))
    exact hp.builds.functionCall _ (hp.offset htokens) (.cons hnode .nil)
  · split
    · by_cases hname : token.text p.left = classTypeName
      · rw [if_pos hname, if_pos hname]
        have hreference := hstates.classReference hp false
        generalize scanning.state.classReference p.left false = reference at hreference ⊢
        generalize other.state.classReference p.right false = reference' at hreference ⊢
        obtain ⟨reference?, last⟩ := reference
        obtain ⟨reference?', last'⟩ := reference'
        rcases hreference with hlost | ⟨hnode, hlast⟩
        -- the look-ahead is undone, and the brackets are read as an index; no bracket closes
        -- them before the end of the left text
        · obtain rfl : reference? = none := hlost.none
          have hinside := hlost.inside hscan hstates.placed hnext.below rfl
          have hcapital : startsWithCapital classTypeName = true := by decide
          rw [hname, hcapital]
          exact .inl ⟨_, rfl, hinside.next⟩
        · cases hnode with
          | some hnode =>
              refine .inr (.some ?_)
              rcases hlast.next hp with hlost | ⟨-, hstates⟩
              · exact .inl hlost
              · exact .inr ⟨⟨h.nesting, h.raw, (h.addNode hnode).children⟩, hstates.toBeside⟩
          | none =>
              dsimp only
              split
              · exact .inr (.some hindex)
              · exact .inr .none
      · rw [if_neg hname, if_neg hname]
        dsimp only
        split
        · exact .inr (.some hindex)
        · exact .inr .none
    · exact .inr .none

/-! ## Names -/

theorem grows_nameAt (hp : p.Lawful) (hscan : p.Twins bound bound' scan twin)
    (h : Matches p scanning other)
    (hnext : p.Meets bound bound' True scanning.state.next other.state.next)
    (htokens : p.tokens token mate) (stops : List TokenKind) :
    Grows p (bound + 1) (bound' + 1) (scanning.nameAt p.left scan stops token)
      (other.nameAt p.right twin stops mate) := by
  unfold nameAt
  dsimp only
  rw [h.nesting, h.endsAt, hp.text htokens, hp.kind htokens]
  split
  · exact grows_advance (hnext.imp fun _ => h.keep _)
  · rcases hnext with hlost | ⟨-, hnext⟩
    · rw [hlost.token?]
      exact .inl hlost
    have hstay := grows_stay (hnext.meets (h.keep (token.text p.left)))
    rcases hnext.cases hp with ⟨hleft, hright, -⟩ | ⟨next, next', hleft, hright, hnames⟩
    · rw [hleft, hright]
      exact hstay
    · rw [hleft, hright]
      dsimp only
      rw [hp.kind hnames]
      split
      · have hresource := Parallel.meets_resource hp hscan hnext (token.text p.left)
          (hp.offset htokens)
        exact grows_advance ((hresource.imp fun hnodes => h.add hnodes).next hp)
      · split
        · have hclass := Parallel.arrives_classAfterName hp hscan hnext hnames
            (hp.offset htokens)
          exact grows_advance ((hclass.imp fun hnode => h.addNode hnode).next hp)
        · exact hstay

theorem grows_wordAt (hp : p.Lawful) (hscan : p.Twins bound bound' scan twin)
    (h : Matches p scanning other)
    (hstates : p.Abreast (bound + 1) (bound' + 1) scanning.state other.state)
    (hnext : p.Meets bound bound' True scanning.state.next other.state.next)
    (htokens : p.tokens token mate) (stops : List TokenKind) :
    Grows p (bound + 1) (bound' + 1) (scanning.wordAt p.left scan stops token)
      (other.wordAt p.right twin stops mate) := by
  have hname := grows_nameAt hp hscan h hnext htokens stops
  unfold wordAt
  dsimp only
  rw [hp.kind htokens]
  split
  · rcases hnext with hlost | ⟨-, hnext⟩
    · have hnone : scanning.applied? p.left scan token = none := by
        unfold applied?
        dsimp only
        rw [hlost.isAt, hlost.isAt]
        rfl
      rw [hnone]
      refine .inl ?_
      unfold nameAt
      dsimp only
      rw [hlost.token?]
      split
      · exact hlost
      · exact hlost
    · have happlied := grows_applied? hp hscan h hstates hnext htokens
      generalize scanning.applied? p.left scan token = applied? at happlied ⊢
      generalize other.applied? p.right twin mate = applied?' at happlied ⊢
      rcases happlied with ⟨lost, rfl, hlost⟩ | happlied
      · exact .inl hlost
      · cases happlied with
        | none => exact hname
        | some hgrows => exact hgrows
  · exact hname

theorem grows_requirementAt (hp : p.Lawful) (hscan : p.Twins bound bound' scan twin)
    (h : Matches p scanning other)
    (hstates : p.Abreast (bound + 1) (bound' + 1) scanning.state other.state)
    (hbelow : scanning.state.next.remaining < bound)
    (hbelow' : other.state.next.remaining < bound') (htokens : p.tokens token mate) :
    Grows p (bound + 1) (bound' + 1) (scanning.requirementAt p.left scan token)
      (other.requirementAt p.right twin mate) := by
  have hread := Parallel.meets_requirementAt hp hscan hstates hbelow hbelow' htokens
  unfold requirementAt
  generalize scanning.state.requirementAt p.left scan token = read at hread ⊢
  generalize other.state.requirementAt p.right twin mate = read' at hread ⊢
  obtain ⟨node, consumed, last⟩ := read
  obtain ⟨node', consumed', last'⟩ := read'
  dsimp only at hread ⊢
  rcases hread with hlost | ⟨⟨hnode, rfl⟩, hlast⟩
  · cases consumed with
    | true => exact .inl hlost.next
    | false => exact .inl hlost
  · cases consumed' with
    | true => exact grows_advance ((hlast.next hp).imp fun _ => h.addNode hnode)
    | false => exact grows_stay (hlast.meets (h.addNode hnode))

/-! ## Tokens -/

theorem grows_significantAt (hp : p.Lawful) (hscan : p.Twins bound bound' scan twin)
    (h : Matches p scanning other)
    (hstates : p.Abreast (bound + 1) (bound' + 1) scanning.state other.state)
    (hleft : scanning.state.token? = some token) (hright : other.state.token? = some mate)
    (htokens : p.tokens token mate) (stops : List TokenKind) :
    Grows p (bound + 1) (bound' + 1) (scanning.significantAt p.left scan stops token)
      (other.significantAt p.right twin stops mate) := by
  have hnext := hstates.next_lt hp hleft
  have hbelow : scanning.state.next.remaining < bound :=
    Nat.lt_of_lt_of_le (ParseState.remaining_next_lt hleft) (Nat.le_of_lt_succ hstates.below)
  have hbelow' : other.state.next.remaining < bound' :=
    Nat.lt_of_lt_of_le (ParseState.remaining_next_lt hright) (Nat.le_of_lt_succ hstates.below')
  have hrequirement := grows_requirementAt hp hscan h hstates hbelow hbelow' htokens
  have hword := grows_wordAt hp hscan h hstates hnext htokens stops
  unfold significantAt
  rw [hp.kind htokens]
  split
  · rw [hp.text htokens]
    have hnode := hp.builds.string (token.text p.left) (hp.offset htokens)
    exact grows_advance (hnext.imp fun _ => h.addNode hnode)
  · exact grows_variableAt hp h hnext htokens
  · exact hrequirement
  · exact hrequirement
  · exact hrequirement
  · exact hword
  · exact hword
  · have hcase := Parallel.meets_caseStatement hp hscan hstates hbelow hbelow'
    exact grows_advance ((hcase.imp fun hnode => h.addNode hnode).next hp)
  · have hcondition := Parallel.meets_condition hp hscan hstates hbelow hbelow' true
    exact grows_advance (hcondition.imp fun hnode => h.addNode hnode)
  · have hcondition := Parallel.meets_condition hp hscan hstates hbelow hbelow' false
    exact grows_advance (hcondition.imp fun hnode => h.addNode hnode)
  · exact grows_dotAt hp hscan h hstates
  · split
    · exact grows_callAt hp hscan h hnext htokens
    · rw [hp.text htokens]
      exact grows_advance (hnext.imp fun _ => h.keep _)

/-- Whatever begins with the token under the cursor is taken out alike. -/
theorem grows_tokenAt (hp : p.Lawful) (hscan : p.Twins bound bound' scan twin)
    (h : Matches p scanning other)
    (hstates : p.Abreast (bound + 1) (bound' + 1) scanning.state other.state)
    (hleft : scanning.state.token? = some token) (hright : other.state.token? = some mate)
    (htokens : p.tokens token mate) (stops : List TokenKind) :
    Grows p (bound + 1) (bound' + 1) (scanning.tokenAt p.left scan stops token)
      (other.tokenAt p.right twin stops mate) := by
  have hsignificant := grows_significantAt hp hscan h hstates hleft hright htokens stops
  unfold tokenAt
  rw [hp.significant htokens, hp.mate_significant htokens, h.nesting, hp.kind htokens]
  split
  · rename_i hblank
    cases hblank
  · split
    · rename_i nesting _
      have hnested : Matches p { scanning with nesting } { other with nesting } :=
        ⟨rfl, h.raw, h.children⟩
      rw [hp.text htokens]
      exact grows_advance ((hstates.next_lt hp hleft).imp fun _ => hnested.keep _)
    · exact hsignificant

/-! ## Loops -/

def Alike (p : Parallel) (limit limit' : Nat) (scanning other : Scanning) : Prop :=
  Matches p scanning other ∧ p.Beside limit limit' scanning.state other.state

theorem endsAt_of_isTrivia (hstops : ∀ kind ∈ stops, kind.isTrivia = false)
    (h : token.isTrivia = true) (scanning : Scanning) :
    scanning.endsAt stops token.kind = false := by
  have hnone : stops.contains token.kind = false := by
    rw [Bool.eq_false_iff]
    intro hcontains
    have hkind := hstops token.kind (List.contains_iff_mem.1 hcontains)
    rw [show token.kind.isTrivia = true from h] at hkind
    cases hkind
  unfold endsAt
  rw [hnone, Bool.and_false]

/-- Steps of two scans; a scan ends off blanks. -/
theorem paired_step (hp : p.Lawful) (hscan : p.Twins bound bound' scan twin)
    (hstops : ∀ kind ∈ stops, kind.isTrivia = false)
    (h : Alike p (bound + 1) (bound' + 1) scanning other) :
    Progress.Paired (fun scanning => p.Lost scanning.state)
      (fun scanning => p.Lost scanning.state) (Alike p (bound + 1) (bound' + 1))
      (fun scanning other => Matches p scanning other ∧
        p.Abreast (bound + 1) (bound' + 1) scanning.state other.state)
      (step p.left scan stops scanning) (step p.right twin stops other) := by
  unfold step
  rcases h.2.cases hp with ⟨hleft, hright, -⟩ | ⟨token, mate, hleft, hright, htokens⟩ |
    ⟨token, mate, hleft, hright, htoken, hmate, -⟩
  · have hstates : p.Abreast (bound + 1) (bound' + 1) scanning.state other.state :=
      ⟨h.2, fun token htoken => by rw [hleft] at htoken; cases htoken⟩
    rw [hleft, hright]
    exact .done ⟨h.1, hstates⟩
  · have hstates : p.Abreast (bound + 1) (bound' + 1) scanning.state other.state := by
      refine ⟨h.2, fun other hother => ?_⟩
      obtain rfl := Option.some.inj (hleft.symm.trans hother)
      exact hp.significant htokens
    have hgrows := grows_tokenAt hp hscan h.1 hstates hleft hright htokens stops
    rw [hleft, hright]
    dsimp only
    rw [h.1.endsAt, hp.kind htokens]
    split
    · exact .done ⟨h.1, hstates⟩
    · rcases hgrows with hlost | halike
      · exact .lost hlost
      · exact .again halike
  · rw [hleft, hright]
    dsimp only
    rw [endsAt_of_isTrivia hstops htoken, endsAt_of_isTrivia hstops hmate]
    unfold tokenAt
    rw [htoken, hmate]
    rcases h.2.next hp with hlost | ⟨-, hstates⟩
    · exact .lost hlost
    · exact .again ⟨⟨h.1.nesting, h.1.raw, h.1.children⟩, hstates.toBeside⟩

variable {source : List Char} {next : Scanning}

theorem remaining_step (hscan : scan.Lays source bound) (hbound : scanning.state.remaining ≤ bound)
    (hplaced : scanning.state.cursor.Placed source)
    (h : step source scan stops scanning = .again next) :
    next.state.remaining < scanning.state.remaining := by
  unfold step at h
  split at h
  · cases h
  · rename_i token htoken
    split at h
    · cases h
    · obtain rfl := Progress.again.inj h
      have hgrows : GrowsFrom source scanning.state scanning
          (scanning.tokenAt source scan stops token) :=
        growsFrom_tokenAt hscan hplaced htoken hbound
      obtain ⟨nodes, -, hreads⟩ := hgrows
      exact Nat.lt_of_le_of_lt hreads.remaining_le (Cursor.remaining_moveNext_lt htoken)

theorem alike_iterate (hp : p.Lawful) (hscan : p.Twins bound bound' scan twin)
    (hstops : ∀ kind ∈ stops, kind.isTrivia = false)
    (h : p.Beside (bound + 1) (bound' + 1) left right) :
    let last := iterate (step p.left scan stops) (left.remaining + 1) (.begin left)
    let last' := iterate (step p.right twin stops) (right.remaining + 1) (.begin right)
    p.Lost last.state ∨
      (Matches p last last' ∧ p.Abreast (bound + 1) (bound' + 1) last.state last'.state) :=
  iterate_paired (fun scanning => scanning.state.remaining) (fun other => other.state.remaining)
    (fun _ _ hread => paired_step hp hscan hstops hread)
    (fun scanning hlost => ⟨scanning, by unfold step; rw [hlost.token?], hlost⟩)
    (fun _ _ _ hread =>
      remaining_step hscan.lays (Nat.le_of_lt_succ hread.2.below) hread.2.placed)
    (fun _ _ _ hread =>
      remaining_step hscan.lays' (Nat.le_of_lt_succ hread.2.below') hread.2.placed')
    (begin left) (begin right) ⟨⟨rfl, rfl, .nil⟩, h⟩
    (Nat.lt_succ_self _) (Nat.lt_succ_self _)

end Scanning

/-! ## Scans -/

namespace Parallel

theorem twins_within (hp : p.Lawful) (hscan : p.Twins bound bound' scan twin) :
    p.Twins (bound + 1) (bound' + 1) (Scan.within p.left scan) (Scan.within p.right twin) where
  lays := Scan.lays_within hscan.lays
  lays' := Scan.lays_within hscan.lays'
  isBlob := fun _ _ _ => rfl
  meets := by
    intro offset offset' stops left right hstops hoffset hstates
    have hend := Scanning.alike_iterate hp hscan hstops hstates
    unfold Scan.within
    dsimp only at hend ⊢
    generalize iterate (Scanning.step p.left scan stops) (left.remaining + 1) (.begin left) =
      last at hend ⊢
    generalize iterate (Scanning.step p.right twin stops) (right.remaining + 1) (.begin right) =
      last' at hend ⊢
    rcases hend with hlost | ⟨hmatches, hlast⟩
    · exact .inl hlost
    · refine hlast.meets ?_
      unfold Scanning.node
      rw [hmatches.raw]
      exact hp.builds.blob _ hoffset (hlast.currentStop hp) hmatches.children

/-- Scans of any depths are twins where there are no more tokens than that. -/
theorem twins_ofDepth (hp : p.Lawful) (depth depth' : Nat) :
    p.Twins depth depth' (Scan.ofDepth p.left depth) (Scan.ofDepth p.right depth') := by
  -- a scan of no depth is twin to any, as no parse has fewer than no tokens left
  induction depth generalizing depth' with
  | zero =>
      refine ⟨Scan.lays_ofDepth _ _, Scan.lays_ofDepth _ _, fun _ _ hstates => ?_,
        fun _ _ _ => rfl⟩
      exact (Nat.not_lt_zero _ hstates.below).elim
  | succ depth ih =>
      cases depth' with
      | zero =>
          refine ⟨Scan.lays_ofDepth _ _, Scan.lays_ofDepth _ _, fun _ _ hstates => ?_,
            fun _ _ _ => rfl⟩
          exact (Nat.not_lt_zero _ hstates.below').elim
      | succ depth' => exact twins_within hp (ih depth')

/-- Scans from the same place on give like stretches. -/
theorem twins_scan (hp : p.Lawful) (bound bound' : Nat) :
    p.Twins bound bound' (Manifest.scan p.left) (Manifest.scan p.right) where
  lays := Scan.lays_scan p.left bound
  lays' := Scan.lays_scan p.right bound'
  isBlob := fun offset stops left =>
    (twins_ofDepth hp (left.remaining + 1) 0).isBlob offset stops left
  meets := by
    intro offset offset' stops left right hstops hoffset hstates
    have htwins := twins_ofDepth hp (left.remaining + 1) (right.remaining + 1)
    have hmeets := htwins.meets hstops hoffset
      (hstates.bounded (Nat.lt_succ_self _) (Nat.lt_succ_self _))
    exact hmeets.mono hstates.below hstates.below'

end Parallel

end Manifest
