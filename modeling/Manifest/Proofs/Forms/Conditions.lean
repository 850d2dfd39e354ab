import Manifest.Proofs.Forms.Facing
import Manifest.Proofs.Scanning.Gathered

/-!
# Conditions that are written out

A condition is a word, a test and a block, and an alternative: nothing, a block behind `else`,
or a further condition behind `elsif`.  Blocks hold plain runs and conditions of their own, so
that the three kinds of forms contain each other.  Where a chain ends is only known from the
token behind it, which is looked at and left for the scan around.
-/

namespace Manifest

/-! ## Forms -/

mutual

/-- What stands between the braces of a branch: plain runs with conditions between them. -/
inductive BlockForm where
  | plain (run : List Token)
  | more (run : List Token) (condition : ConditionForm) (rest : BlockForm)

inductive ConditionForm where
  | branch (word : Token) (test : List Token) (opening : Token) (body : BlockForm)
      (closing : Token) (alternative : AlternativeForm)

inductive AlternativeForm where
  | nothing
  | otherwise (word opening : Token) (body : BlockForm) (closing : Token)
  | elsif (condition : ConditionForm)

end

mutual

def BlockForm.tokens : BlockForm → List Token
  | .plain run => run
  | .more run condition rest => run ++ (condition.tokens ++ rest.tokens)

def ConditionForm.tokens : ConditionForm → List Token
  | .branch word test opening body closing alternative =>
      word :: (test ++ opening :: (body.tokens ++ closing :: alternative.tokens))

def AlternativeForm.tokens : AlternativeForm → List Token
  | .nothing => []
  | .otherwise word opening body closing => word :: opening :: (body.tokens ++ [closing])
  | .elsif condition => condition.tokens

end

def ConditionForm.word : ConditionForm → Token
  | .branch word _ _ _ _ _ => word

mutual

/-- The words that would go on with a chain that ends here. -/
def AlternativeForm.furtherWords (allowsElsif : Bool) : AlternativeForm → List TokenKind
  | .nothing => if allowsElsif then [.kwElse, .kwElsif] else [.kwElse]
  | .otherwise _ _ _ _ => []
  | .elsif condition => condition.furtherWords

def ConditionForm.furtherWords : ConditionForm → List TokenKind
  | .branch word _ _ _ _ alternative => alternative.furtherWords (word.kind != .kwUnless)

end

mutual

/-- The runs are plain, the words are in their places, and behind a chain in a block stands no
word that would go on with it. -/
def BlockForm.WellFormed : BlockForm → Prop
  | .plain run => PlainRun [] run
  | .more run condition rest =>
      PlainRun [] run ∧ condition.word.kind ∈ [TokenKind.kwIf, .kwUnless] ∧
        condition.WellFormed ∧
        (∀ token ∈ rest.tokens.head?, token.kind ∉ condition.furtherWords) ∧ rest.WellFormed

def ConditionForm.WellFormed : ConditionForm → Prop
  | .branch word test opening body closing alternative =>
      PassableRun [.leftBrace] [] test ∧ opening.kind = .leftBrace ∧ body.WellFormed ∧
        closing.kind = .rightBrace ∧ alternative.WellFormed (word.kind != .kwUnless)

def AlternativeForm.WellFormed (allowsElsif : Bool) : AlternativeForm → Prop
  | .nothing => True
  | .otherwise word opening body closing =>
      word.kind = .kwElse ∧ opening.kind = .leftBrace ∧ body.WellFormed ∧
        closing.kind = .rightBrace
  | .elsif condition =>
      allowsElsif = true ∧ condition.word.kind = .kwElsif ∧ condition.WellFormed

end

mutual

def BlockForm.Shown : BlockForm → List Node → Prop
  | .plain _, conditions => conditions = []
  | .more _ condition rest, conditions =>
      ∃ node others, conditions = node :: others ∧ condition.Shown node ∧ rest.Shown others

/-- The node of a condition: its test and its block as stretches, and its alternative. -/
def ConditionForm.Shown : ConditionForm → Node → Prop
  | .branch word test opening body closing alternative, node =>
      ∃ condition consequence otherwise?,
        node = Branch.node ⟨word.offset, condition, consequence⟩ otherwise? ∧
        condition.Stretches (test.headD opening) opening ∧
        consequence.Stretches (body.tokens.headD closing) closing ∧
        body.Shown (consequence.childrenOfKind .condition) ∧ alternative.Shown otherwise?

/-- The node of an alternative: none, the stretch of a block, or a condition of its own. -/
def AlternativeForm.Shown : AlternativeForm → Option Node → Prop
  | .nothing, otherwise? => otherwise? = none
  | .otherwise _ _ body closing, otherwise? =>
      ∃ block, otherwise? = some block ∧
        block.Stretches (body.tokens.headD closing) closing ∧
        body.Shown (block.childrenOfKind .condition)
  | .elsif condition, otherwise? => ∃ node, otherwise? = some node ∧ condition.Shown node

end

/-! ## Plain runs between conditions -/

namespace Scanning

variable {source : List Char} {scanning : Scanning} {origin : ParseState} {start : Int}
  {run rest : List Token} {stop : Token}

/-- A scan of a body has come from one place to another one outside of its brackets.  It has
taken out some nodes, and `conditions` among them. -/
structure Comes (source : List Char) (scanning last : Scanning) (conditions : List Node) :
    Prop where
  reaches : ∃ met, Reaches source bodyStops scanning met last
  nesting : last.nesting = .ofOpen []
  children : ∃ nodes, last.children = scanning.children ++ nodes ∧
    (nodes.filter fun node => node.kind == .condition) = conditions
  reported : last.state.reported = scanning.state.reported

theorem Comes.trans {middle last : Scanning} {conditions more : List Node}
    (h : scanning.Comes source middle conditions) (h' : middle.Comes source last more) :
    scanning.Comes source last (conditions ++ more) where
  reaches := by
    obtain ⟨met, hreaches⟩ := h.reaches
    obtain ⟨met', hreaches'⟩ := h'.reaches
    exact ⟨met ++ met', hreaches.trans hreaches'⟩
  nesting := h'.nesting
  children := by
    obtain ⟨nodes, hchildren, rfl⟩ := h.children
    obtain ⟨nodes', hchildren', rfl⟩ := h'.children
    exact ⟨nodes ++ nodes', by rw [hchildren', hchildren, List.append_assoc],
      List.filter_append _ _⟩
  reported := h'.reported.trans h.reported

theorem Comes.laying {last : Scanning} {conditions : List Node}
    (h : scanning.Comes source last conditions) (hlaying : Laying source origin start scanning) :
    Laying source origin start last := by
  obtain ⟨met, hreaches⟩ := h.reaches
  exact (hreaches.laying hlaying).1

theorem exists_comes (hlaying : Laying source origin start scanning)
    (hnesting : scanning.nesting = .ofOpen [])
    (hfaces : scanning.state.Faces (run ++ stop :: rest)) (hrun : PlainRun [] run)
    (hstop : stop.kind ∈ [TokenKind.rightBrace, .kwIf, .kwUnless]) :
    ∃ last, scanning.Comes source last [] ∧ last.state.Faces (stop :: rest) := by
  obtain ⟨goal, passed, hbefore, rfl, hgoal⟩ := hfaces.toSees.exists_goal
  have hpassable : PassableRun bodyStops [] (Token.significant passed) :=
    hrun.passable_closing .brace
  have hkinds : ∀ kind ∈ [TokenKind.rightBrace, .kwIf, .kwUnless],
      kind ∈ haltKinds ∧ kind ≠ .leftBrace := by decide
  have hhalts : goal.Halts bodyStops :=
    ⟨stop, hgoal.token?, (hkinds _ hstop).1, fun hbrace => ((hkinds _ hstop).2 hbrace).elim⟩
  obtain ⟨met, last, hreaches, hend, hclosed, nodes, hchildren, hplain, -⟩ :=
    reaches_goal (Scan.gathers_scan source scanning.state.remaining) hhalts hlaying
      (Nat.le_refl _) ⟨[], hnesting, passed, hbefore, hpassable.of_significant (by decide)⟩
  refine ⟨last, ⟨⟨met, hreaches⟩, hclosed, ⟨nodes, hchildren, ?_⟩, ?_⟩, ?_⟩
  · refine List.filter_eq_nil_iff.2 fun node hnode hcondition => ?_
    have hkind := hplain node hnode
    rw [eq_of_beq hcondition] at hkind
    revert hkind
    decide
  · rw [hend]
    exact hbefore.reported.symm
  · rw [hend]
    exact hgoal

theorem step_of_word (source : List Char) {stops : List TokenKind} {word : Token}
    (htoken : scanning.state.token? = some word) (hword : word.kind = .kwIf ∨ word.kind = .kwUnless)
    (hends : scanning.endsAt stops word.kind = false) :
    scanning.step source (Manifest.scan source) stops =
      .again
        ((scanning.add
          [(scanning.state.condition source (Manifest.scan source)
            (word.kind != .kwUnless)).1]).advance
          (scanning.state.condition source (Manifest.scan source) (word.kind != .kwUnless)).2) := by
  unfold step
  rw [htoken]
  dsimp only
  rw [hends, if_neg (by decide)]
  unfold tokenAt significantAt Token.isTrivia
  rcases hword with hword | hword <;> rw [hword] <;> rfl

end Scanning

/-! ## How forms are read -/

def BlockForm.Runs (source : List Char) (form : BlockForm) : Prop :=
  ∀ {scanning : Scanning} {origin : ParseState} {start : Int} {closing : Token}
    {rest : List Token}, scanning.Laying source origin start → scanning.nesting = .ofOpen [] →
    scanning.state.Faces (form.tokens ++ closing :: rest) → closing.kind = .rightBrace →
    ∃ last conditions, scanning.Comes source last conditions ∧
      last.state.Faces (closing :: rest) ∧ form.Shown conditions

def ConditionForm.Reads (source : List Char) (form : ConditionForm) : Prop :=
  ∀ {state : ParseState} {rest : List Token}, state.cursor.Placed source →
    state.Faces (form.tokens ++ rest) → (∀ token ∈ rest.head?, token.kind ∉ form.furtherWords) →
    ∃ node last,
      state.condition source (Manifest.scan source) (form.word.kind != .kwUnless) = (node, last) ∧
      form.Shown node ∧ last.next.Faces rest ∧ last.next.reported = state.reported

def AlternativeForm.Reads (source : List Char) (allowsElsif : Bool) (form : AlternativeForm) :
    Prop :=
  ∀ (branches : List Branch) {state : ParseState} {rest : List Token} {fuel : Nat},
    state.cursor.Placed source → state.cursor.Settled → state.Faces (form.tokens ++ rest) →
    (form.tokens ++ rest).length < fuel →
    (∀ token ∈ rest.head?, token.kind ∉ form.furtherWords allowsElsif) →
    ∃ more otherwise? last,
      iterate (Branches.step source (Manifest.scan source) allowsElsif) fuel
          ⟨branches, none, state⟩ =
        ⟨branches ++ more, otherwise?, last⟩ ∧
      form.Shown (more.foldr (fun branch otherwise? => some (branch.node otherwise?)) otherwise?) ∧
      last.next.Faces rest ∧ last.next.reported = state.reported

section Reading

variable {source : List Char} {state : ParseState} {word opening closing : Token}
  {test rest run : List Token} {body block : BlockForm} {condition : ConditionForm}
  {alternative : AlternativeForm} {allowsElsif : Bool}

/-! ## Blocks -/

/-- The stretch of a block holds its conditions. -/
theorem BlockForm.Runs.passes (h : body.Runs source) (hplaced : state.cursor.Placed source)
    (hfaces : state.Faces (body.tokens ++ closing :: rest))
    (hclosing : closing.kind = .rightBrace) :
    state.Passes source (body.tokens.headD closing) closing rest
        ((Manifest.scan source).here source bodyStops state) ∧
      body.Shown (((Manifest.scan source).here source bodyStops state).1.childrenOfKind
        .condition) := by
  have hoffset : state.offset source = (body.tokens.headD closing).offset := hfaces.offset_headD
  obtain ⟨last, conditions, hcomes, hlast, hshown⟩ :=
    h (Scanning.laying_begin hplaced) rfl hfaces hclosing
  obtain ⟨met, hreaches⟩ := hcomes.reaches
  have hends : last.state.EndsRun bodyStops := by
    refine ⟨closing, hlast.token?, ?_, ?_⟩
    · rw [hclosing]
      decide
    · rw [hclosing]
      rfl
  have hscan := hreaches.scan_eq (Scanning.step_of_endsRun hends rfl hcomes.nesting) hplaced
    (Nat.le_of_eq hoffset.symm)
  unfold Scan.here
  rw [hoffset]
  refine ⟨Scan.passes_of_faces hplaced (Nat.le_of_eq hoffset.symm) ?_ ?_, ?_⟩
  · rw [hscan]
    exact hlast
  · rw [hscan]
    exact hcomes.reported
  · obtain ⟨nodes, hchildren, hconditions⟩ := hcomes.children
    rw [hscan]
    unfold Node.childrenOfKind
    rw [show (last.node source (body.tokens.headD closing).offset).children = nodes from hchildren,
      hconditions]
    exact hshown

theorem BlockForm.runs_plain (hrun : PlainRun [] run) : (BlockForm.plain run).Runs source := by
  intro scanning origin start closing rest hlaying hnesting hfaces hclosing
  obtain ⟨last, hcomes, hlast⟩ := Scanning.exists_comes hlaying hnesting hfaces hrun
    (by rw [hclosing]; decide)
  exact ⟨last, [], hcomes, hlast, rfl⟩

theorem ConditionForm.tokens_eq (condition : ConditionForm) :
    condition.tokens = condition.word :: condition.tokens.tail := by
  cases condition
  rfl

theorem ConditionForm.Shown.kind {node : Node} (h : condition.Shown node) :
    node.kind = .condition := by
  cases condition
  obtain ⟨_, _, _, rfl, -⟩ := h
  rfl

mutual

theorem AlternativeForm.rightBrace_not_mem (allowsElsif : Bool) :
    (alternative : AlternativeForm) →
      TokenKind.rightBrace ∉ alternative.furtherWords allowsElsif
  | .nothing => by
      unfold AlternativeForm.furtherWords
      cases allowsElsif <;> decide
  | .otherwise _ _ _ _ => by
      unfold AlternativeForm.furtherWords
      exact List.not_mem_nil
  | .elsif condition => by
      unfold AlternativeForm.furtherWords
      exact ConditionForm.rightBrace_not_mem condition

theorem ConditionForm.rightBrace_not_mem :
    (condition : ConditionForm) → TokenKind.rightBrace ∉ condition.furtherWords
  | .branch word _ _ _ _ alternative => by
      unfold ConditionForm.furtherWords
      exact AlternativeForm.rightBrace_not_mem (word.kind != .kwUnless) alternative

end

theorem BlockForm.runs_more (hrun : PlainRun [] run)
    (hword : condition.word.kind ∈ [TokenKind.kwIf, .kwUnless])
    (hcondition : condition.Reads source)
    (hrest : ∀ token ∈ block.tokens.head?, token.kind ∉ condition.furtherWords)
    (hblock : block.Runs source) : (BlockForm.more run condition block).Runs source := by
  intro scanning origin start closing rest hlaying hnesting hfaces hclosing
  have hwords : condition.word.kind = .kwIf ∨ condition.word.kind = .kwUnless := by
    simpa using hword
  have hfirst : scanning.state.Faces (run ++ condition.word ::
      (condition.tokens.tail ++ (block.tokens ++ closing :: rest))) := by
    rw [BlockForm.tokens, condition.tokens_eq] at hfaces
    simpa using hfaces
  obtain ⟨first, hcomes, hatWord⟩ := Scanning.exists_comes hlaying hnesting hfirst hrun
    (List.mem_cons_of_mem _ hword)
  have hbehind : ∀ token ∈ (block.tokens ++ closing :: rest).head?,
      token.kind ∉ condition.furtherWords := by
    intro token htoken
    cases htokens : block.tokens with
    | nil =>
        rw [htokens] at htoken
        obtain rfl : closing = token := Option.some.inj htoken
        rw [hclosing]
        exact condition.rightBrace_not_mem
    | cons head tokens =>
        rw [htokens] at htoken hrest
        exact hrest token htoken
  have hatCondition :
      first.state.Faces (condition.tokens ++ (block.tokens ++ closing :: rest)) := by
    rw [condition.tokens_eq]
    exact hatWord
  have hplaced := (hcomes.laying hlaying).placed_after
  obtain ⟨node, last, hread, hshown, hnext, hreported⟩ :=
    hcondition hplaced hatCondition hbehind
  have hends : first.endsAt bodyStops condition.word.kind = false := by
    rcases hwords with h | h <;> rw [h] <;> simp [Scanning.endsAt, bodyStops]
  have hstep := Scanning.step_of_word source hatWord.token? hwords hends
  rw [hread] at hstep
  have hover : first.Comes source ((first.add [node]).advance last) [node] := by
    refine ⟨⟨[condition.word], .onward hatWord.token? hstep (.here _)⟩, hcomes.nesting,
      ⟨[node], rfl, ?_⟩, hreported⟩
    exact List.filter_cons_of_pos (beq_iff_eq.2 hshown.kind)
  obtain ⟨ending, conditions, hrestComes, hend, hconditions⟩ :=
    hblock ((hcomes.trans hover).laying hlaying) hover.nesting hnext hclosing
  exact ⟨ending, node :: conditions, (hcomes.trans hover).trans hrestComes, hend,
    node, conditions, rfl, hshown, hconditions⟩

/-! ## Conditions and their alternatives -/

theorem reads_branch (hplaced : state.cursor.Placed source)
    (hfaces : state.Faces (word :: (test ++ opening :: (body.tokens ++ closing :: rest))))
    (htest : PassableRun [.leftBrace] [] test) (hopening : opening.kind = .leftBrace)
    (hbody : body.Runs source) (hclosing : closing.kind = .rightBrace) :
    ∃ test? consequence last,
      state.branch source (Manifest.scan source) = (⟨word.offset, test?, consequence⟩, last) ∧
      test?.Stretches (test.headD opening) opening ∧
      consequence.Stretches (body.tokens.headD closing) closing ∧
      body.Shown (consequence.childrenOfKind .condition) ∧ last.Faces (closing :: rest) ∧
      last.reported = state.reported ∧ last.cursor.Placed source := by
  have hstop : conditionStops.contains opening.kind = true := by
    rw [hopening]
    rfl
  have hrun : PassableRun conditionStops [] test := htest
  have hcondition := Scan.passes_here (ParseState.placed_next hplaced) hfaces.next hrun
    (by decide) hstop
  obtain ⟨hconsequence, hshown⟩ := hbody.passes (ParseState.placed_next hcondition.placed)
    hcondition.faces.next hclosing
  refine ⟨_, _, _, ?_, hcondition.stretches, hconsequence.stretches, hshown, hconsequence.faces,
    hconsequence.reported.trans hcondition.reported, hconsequence.placed⟩
  unfold ParseState.branch
  rw [hfaces.offset]

theorem ConditionForm.reads_branch (htest : PassableRun [.leftBrace] [] test)
    (hopening : opening.kind = .leftBrace) (hbody : body.Runs source)
    (hclosing : closing.kind = .rightBrace)
    (halternative : alternative.Reads source (word.kind != .kwUnless)) :
    (ConditionForm.branch word test opening body closing alternative).Reads source := by
  intro state rest hplaced hfaces hrest
  have hbranch : state.Faces (word :: (test ++ opening :: (body.tokens ++ closing ::
      (alternative.tokens ++ rest)))) := by
    simpa [ConditionForm.tokens] using hfaces
  obtain ⟨condition, consequence, last, hread, hcondition, hconsequence, hshown, hlast, hreported,
    hplacedLast⟩ := Manifest.reads_branch hplaced hbranch htest hopening hbody hclosing
  have hlength := hlast.next.toSees.length_le
  obtain ⟨more, otherwise?, final, hmore, hotherwise, hnext, hfinal⟩ := halternative
    [] (ParseState.placed_next hplacedLast) (Cursor.settled_next hlast.begun)
    hlast.next (Nat.lt_succ_of_le hlength) hrest
  refine ⟨_, final, ?_, ⟨condition, consequence, _, rfl, hcondition, hconsequence, hshown,
    hotherwise⟩, hnext, hfinal.trans hreported⟩
  unfold ParseState.condition Branches.readAll
  rw [hread]
  dsimp only [ConditionForm.word]
  rw [hmore]
  rfl

/-- Where a chain ends, the token that was looked at is left. -/
theorem AlternativeForm.reads_nothing :
    AlternativeForm.nothing.Reads source allowsElsif := by
  intro branches state rest fuel hplaced hsettled hfaces hfuel hrest
  obtain ⟨fuel, rfl⟩ := Nat.exists_eq_succ_of_ne_zero (Nat.ne_zero_of_lt hfuel)
  have hatRest : state.Faces rest := hfaces
  have hback : state.previous.next = state :=
    congrArg (fun cursor => { state with cursor }) hsettled.next_previous
  have hstep : Branches.step source (Manifest.scan source) allowsElsif ⟨branches, none, state⟩ =
      .done ⟨branches, none, state.previous⟩ := by
    have hword : ∀ kind, state.kind? = some kind →
        kind ∉ AlternativeForm.nothing.furtherWords allowsElsif := by
      intro kind hkind
      rw [hatRest.kind?] at hkind
      obtain ⟨token, htoken, rfl⟩ := Option.map_eq_some_iff.1 hkind
      exact hrest token htoken
    unfold Branches.step
    dsimp only
    split
    · rename_i helse
      exact (hword _ helse (by cases allowsElsif <;> decide)).elim
    · rename_i helsif
      cases allowsElsif with
      | true => exact (hword _ helsif (by decide)).elim
      | false => rfl
    · rfl
  refine ⟨[], none, state.previous, ?_, rfl, ?_, ?_⟩
  · rw [Nat.succ_eq_add_one, iterate_done hstep, List.append_nil]
  · rw [hback]
    exact hatRest
  · rw [hback]

theorem AlternativeForm.reads_otherwise (hword : word.kind = .kwElse)
    (hopening : opening.kind = .leftBrace) (hbody : body.Runs source)
    (hclosing : closing.kind = .rightBrace) :
    (AlternativeForm.otherwise word opening body closing).Reads source allowsElsif := by
  intro branches state rest fuel hplaced hsettled hfaces hfuel hrest
  obtain ⟨fuel, rfl⟩ := Nat.exists_eq_succ_of_ne_zero (Nat.ne_zero_of_lt hfuel)
  have hatWord : state.Faces (word :: opening :: (body.tokens ++ closing :: rest)) := by
    simpa [AlternativeForm.tokens] using hfaces
  obtain ⟨hpasses, hshown⟩ := hbody.passes
    (ParseState.placed_next (ParseState.placed_next hplaced)) hatWord.next.next hclosing
  have hstep : Branches.step source (Manifest.scan source) allowsElsif ⟨branches, none, state⟩ =
      .done ⟨branches, some ((Manifest.scan source).here source bodyStops state.next.next).1,
        ((Manifest.scan source).here source bodyStops state.next.next).2⟩ := by
    have hkind : state.kind? = some .kwElse := hatWord.kind?.trans (congrArg some hword)
    have hat : state.next.isAt .leftBrace = true := by
      rw [hatWord.next.isAt, hopening]
      rfl
    unfold Branches.step
    dsimp only
    rw [hkind]
    dsimp only
    rw [if_pos hat]
  refine ⟨[], some ((Manifest.scan source).here source bodyStops state.next.next).1,
    ((Manifest.scan source).here source bodyStops state.next.next).2, ?_,
    ⟨_, rfl, hpasses.stretches, hshown⟩, hpasses.faces.next, hpasses.reported⟩
  rw [Nat.succ_eq_add_one, iterate_done hstep, List.append_nil]

theorem AlternativeForm.reads_elsif (hword : word.kind = .kwElsif)
    (htest : PassableRun [.leftBrace] [] test) (hopening : opening.kind = .leftBrace)
    (hbody : body.Runs source) (hclosing : closing.kind = .rightBrace)
    (halternative : alternative.Reads source true) :
    (AlternativeForm.elsif (.branch word test opening body closing alternative)).Reads source
      true := by
  intro branches state rest fuel hplaced hsettled hfaces hfuel hrest
  obtain ⟨fuel, rfl⟩ := Nat.exists_eq_succ_of_ne_zero (Nat.ne_zero_of_lt hfuel)
  have hbranch : state.Faces (word :: (test ++ opening :: (body.tokens ++ closing ::
      (alternative.tokens ++ rest)))) := by
    simpa [AlternativeForm.tokens, ConditionForm.tokens] using hfaces
  obtain ⟨condition, consequence, last, hread, hcondition, hconsequence, hshown, hlast, hreported,
    hplacedLast⟩ := Manifest.reads_branch hplaced hbranch htest hopening hbody hclosing
  have hallowed : (word.kind != .kwUnless) = true := by
    rw [hword]
    rfl
  have hless : (alternative.tokens ++ rest).length < fuel := by
    simp only [AlternativeForm.tokens, ConditionForm.tokens, List.length_append,
      List.length_cons] at hfuel ⊢
    omega
  have hfurther : ∀ token ∈ rest.head?, token.kind ∉ alternative.furtherWords true := by
    rw [AlternativeForm.furtherWords, ConditionForm.furtherWords, hallowed] at hrest
    exact hrest
  obtain ⟨more, otherwise?, final, hmore, hotherwise, hnext, hfinal⟩ := halternative
    (branches ++ [⟨word.offset, condition, consequence⟩])
    (ParseState.placed_next hplacedLast) (Cursor.settled_next hlast.begun) hlast.next hless hfurther
  have hstep : Branches.step source (Manifest.scan source) true ⟨branches, none, state⟩ =
      .again ⟨branches ++ [⟨word.offset, condition, consequence⟩], none, last.next⟩ := by
    have hkind : state.kind? = some .kwElsif := hbranch.kind?.trans (congrArg some hword)
    unfold Branches.step
    dsimp only
    rw [hkind]
    dsimp only
    rw [if_pos rfl, hread]
  refine ⟨⟨word.offset, condition, consequence⟩ :: more, otherwise?, final, ?_,
    ⟨_, rfl, condition, consequence, _, rfl, hcondition, hconsequence, hshown, hotherwise⟩, hnext,
    hfinal.trans hreported⟩
  rw [Nat.succ_eq_add_one, iterate_again hstep, hmore, List.append_assoc]
  rfl

/-! ## All forms -/

mutual

theorem BlockForm.runs : (form : BlockForm) → form.WellFormed → form.Runs source
  | .plain _, hform => BlockForm.runs_plain hform
  | .more _ condition rest, hform => by
      obtain ⟨hrun, hword, hcondition, hbehind, hrest⟩ := hform
      exact BlockForm.runs_more hrun hword (ConditionForm.reads condition hcondition) hbehind
        (BlockForm.runs rest hrest)

theorem ConditionForm.reads : (form : ConditionForm) → form.WellFormed → form.Reads source
  | .branch word _ _ body _ alternative, hform => by
      obtain ⟨htest, hopening, hbody, hclosing, halternative⟩ := hform
      exact ConditionForm.reads_branch htest hopening (BlockForm.runs body hbody) hclosing
        (AlternativeForm.reads alternative halternative)

theorem AlternativeForm.reads : (form : AlternativeForm) → {allowsElsif : Bool} →
    form.WellFormed allowsElsif → form.Reads source allowsElsif
  | .nothing, _, _ => AlternativeForm.reads_nothing
  | .otherwise _ _ body _, _, hform => by
      obtain ⟨hword, hopening, hbody, hclosing⟩ := hform
      exact AlternativeForm.reads_otherwise hword hopening (BlockForm.runs body hbody) hclosing
  | .elsif (.branch word test opening body closing alternative), _, hform => by
      obtain ⟨rfl, hword, htest, hopening, hbody, hclosing, halternative⟩ := hform
      have hallowed : alternative.WellFormed true := by
        rw [show word.kind = .kwElsif from hword] at halternative
        exact halternative
      exact AlternativeForm.reads_elsif hword htest hopening (BlockForm.runs body hbody) hclosing
        (AlternativeForm.reads alternative hallowed)

end

end Reading

namespace Scanning

/-- A scan that comes to `if` or `unless`, with blanks anywhere in what is written, takes out one
condition: its test and its block up to their braces, the conditions of the block, and the
alternative, where each `elsif` is a condition inside of the one before and the last of them holds
the block of `else`, if there is one.  It reports nothing, and goes on with the token behind the
chain, or at the end of the text.  Behind `unless` there is no `elsif` in the chain; one that
follows is left. -/
theorem step_conditionForm (multiline : Bool) (source : List Char) (stops : List TokenKind)
    (form : ConditionForm) (rest : List Token) (scanning : Scanning)
    (htokens : scanning.state.cursor.tokens = (TokenStream.lex multiline source).tokens)
    (hfaces : scanning.state.Faces (form.tokens ++ rest))
    (hword : form.word.kind ∈ [TokenKind.kwIf, .kwUnless]) (hform : form.WellFormed)
    (hrest : ∀ token ∈ rest.head?, token.kind ∉ form.furtherWords)
    (hends : scanning.endsAt stops form.word.kind = false) :
    ∃ node after,
      scanning.step source (Manifest.scan source) stops =
        .again { scanning with
          children := scanning.children ++ [node]
          state := after } ∧
      form.Shown node ∧ after.Faces rest ∧ after.reported = scanning.state.reported := by
  have hplaced : scanning.state.cursor.Placed source := Cursor.placed_of_lex hfaces.begun htokens
  obtain ⟨node, last, hread, hshown, hnext, hreported⟩ := form.reads hform hplaced hfaces hrest
  have htoken : scanning.state.token? = some form.word := by
    rw [form.tokens_eq] at hfaces
    exact hfaces.token?
  have hstep := step_of_word source htoken (by simpa using hword) hends
  rw [hread] at hstep
  exact ⟨node, last.next, hstep, hshown, hnext, hreported⟩

def writtenChain : List Char :=
  "if a \x7b unless $b \x7b \x7d $c \x7d # then\nelsif f(d) \x7b \x7d else \x7b \x7d $e".toList

def chainForm : ConditionForm :=
  .branch (.spelled .kwIf 0) [.loose .identifier 3 1] (.spelled .leftBrace 5)
    (.more []
      (.branch (.spelled .kwUnless 7) [.loose .variable 14 2] (.spelled .leftBrace 17) (.plain [])
        (.spelled .rightBrace 19) .nothing)
      (.plain [.loose .variable 21 2]))
    (.spelled .rightBrace 24)
    (.elsif
      (.branch (.spelled .kwElsif 33)
        [.loose .identifier 39 1, .spelled .leftParen 40, .loose .identifier 41 1,
          .spelled .rightParen 42]
        (.spelled .leftBrace 44) (.plain []) (.spelled .rightBrace 46)
        (.otherwise (.spelled .kwElse 48) (.spelled .leftBrace 53) (.plain [])
          (.spelled .rightBrace 55))))

def onChain : Scanning :=
  .begin (ParseState.ofTokens (TokenStream.lex false writtenChain).tokens).moveNext

/-- The chain is taken out whole, and the variable behind it is ahead. -/
theorem step_conditionForm_chainForm :
    onChain.state.cursor.tokens = (TokenStream.lex false writtenChain).tokens ∧
      onChain.state.Faces (chainForm.tokens ++ [.loose .variable 57 2]) ∧
      chainForm.word.kind ∈ [TokenKind.kwIf, .kwUnless] ∧ chainForm.WellFormed ∧
      (∀ token ∈ [Token.loose .variable 57 2].head?, token.kind ∉ chainForm.furtherWords) ∧
      onChain.endsAt bodyStops chainForm.word.kind = false ∧
      ∃ node after,
        onChain.step writtenChain (Manifest.scan writtenChain) bodyStops =
          .again { onChain with
            children := onChain.children ++ [node]
            state := after } ∧
        chainForm.Shown node ∧ after.Faces [.loose .variable 57 2] ∧
        after.reported = onChain.state.reported := by
  have htokens : onChain.state.cursor.tokens = (TokenStream.lex false writtenChain).tokens :=
    (ParseState.leadsTo_moveNext _).tokens_eq
  have hbegun : onChain.state.cursor.Begun :=
    Cursor.begun_enter [] (TokenStream.lex false writtenChain).tokens
  have hfaces : onChain.state.Faces (chainForm.tokens ++ [.loose .variable 57 2]) :=
    ⟨⟨hbegun, by decide +kernel⟩, by decide +kernel⟩
  have hempty : BlockForm.WellFormed (.plain []) :=
    ⟨by decide, by decide, by decide⟩
  have hinner : ConditionForm.WellFormed (.branch (.spelled .kwUnless 7) [.loose .variable 14 2]
      (.spelled .leftBrace 17) (.plain []) (.spelled .rightBrace 19) .nothing) :=
    ⟨⟨⟨by decide, by decide, by decide⟩, by decide⟩, by decide, hempty, by decide, trivial⟩
  have hform : chainForm.WellFormed :=
    ⟨⟨⟨by decide, by decide, by decide⟩, by decide⟩, by decide,
      ⟨⟨by decide, by decide, by decide⟩, by decide, hinner, by decide,
        ⟨by decide, by decide, by decide⟩⟩,
      by decide, by decide, by decide,
      ⟨⟨by decide, by decide, by decide⟩, by decide⟩, by decide, hempty, by decide, by decide,
      by decide, hempty, by decide⟩
  have hrest : ∀ token ∈ [Token.loose .variable 57 2].head?,
      token.kind ∉ chainForm.furtherWords := by
    decide
  exact ⟨htokens, hfaces, by decide, hform, hrest, rfl,
    step_conditionForm false writtenChain bodyStops chainForm [.loose .variable 57 2] onChain
      htokens hfaces (by decide) hform hrest rfl⟩

end Scanning

end Manifest
