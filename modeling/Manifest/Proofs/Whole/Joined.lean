import Mathlib.Data.List.TakeWhile
import Manifest.Proofs.Lexing.Restart
import Manifest.Proofs.Parallel.TopLevel
import Manifest.Proofs.Tree.Remapped

/-!
# Closed texts with others behind them

A text that ends with the brace of its last declaration is read as it is by itself, whatever
follows; and what follows is read as it is by itself, only further on.
-/

namespace Manifest

namespace TokenStream

def behind (multiline : Bool) (front back : List Char) : List Token :=
  (lex multiline back).tokens.map (Token.shift front.length)

/-- Two texts that are put together are lexed as they are by themselves. -/
def Joins (multiline : Bool) (front back : List Char) : Prop :=
  (lex multiline (front ++ back)).tokens =
    (lex multiline front).tokens ++ behind multiline front back

end TokenStream

/-! ## Parses that are not stopped -/

namespace TopLevel

def first (tokens : List Token) : TopLevel :=
  ⟨[], false, (ParseState.ofTokens tokens).next, 0, 0⟩

def run (source : List Char) (reportGap : Bool) (count : Nat) (read : TopLevel) : TopLevel :=
  iterate (step source reportGap .never) count read

/-- The parse is at the word of a declaration.  It leaves the declaration on a brace, where the
scan of the body stopped, and there are but blanks behind that. -/
structure Closes (source : List Char) (reportGap : Bool) (token : Token) (read : TopLevel) :
    Prop where
  token? : read.state.token? = some token
  declares : token.kind ∈ [TokenKind.kwClass, TokenKind.kwDefine, TokenKind.kwNode]
  brace : (read.declaration source reportGap token).state.isAt .rightBrace = true
  blanks : ∀ blank ∈ (read.declaration source reportGap token).state.cursor.ahead.tail,
    blank.isTrivia = true

variable {source : List Char} {reportGap : Bool} {token : Token} {read other : TopLevel}
  {count more : Nat}

theorem run_of_none (h : read.state.token? = none) : run source reportGap count read = read := by
  unfold run
  cases count with
  | zero => rfl
  | succ count => rw [iterate, step_of_none h]

theorem run_succ (h : read.state.token? = some token) :
    run source reportGap (count + 1) read =
      run source reportGap count (read.onward source reportGap token) := by
  unfold run
  rw [iterate, step_of_token h]
  rfl

theorem run_add (count more : Nat) (read : TopLevel) :
    run source reportGap (count + more) read =
      run source reportGap more (run source reportGap count read) := by
  induction count generalizing read with
  | zero =>
      rw [Nat.zero_add]
      rfl
  | succ count ih =>
      rw [Nat.succ_add]
      cases htoken : read.state.token? with
      | none => rw [run_of_none htoken, run_of_none htoken, run_of_none htoken]
      | some token => rw [run_succ htoken, run_succ htoken, ih]

theorem run_of_le (h : (run source reportGap count read).state.token? = none)
    (hle : count ≤ more) : run source reportGap more read = run source reportGap count read := by
  obtain ⟨rest, rfl⟩ := Nat.exists_eq_add_of_le hle
  rw [run_add, run_of_none h]

theorem run_unique (h : (run source reportGap count read).state.token? = none)
    (hmore : (run source reportGap more read).state.token? = none) :
    run source reportGap more read = run source reportGap count read := by
  rcases Nat.le_total count more with hle | hle
  · exact run_of_le h hle
  · exact (run_of_le hmore hle).symm

/-- A parse comes to the end. -/
theorem token?_run (hplaced : read.state.cursor.Placed source)
    (hcount : read.state.remaining < count) :
    (run source reportGap count read).state.token? = none := by
  induction count generalizing read with
  | zero => omega
  | succ count ih =>
      cases htoken : read.state.token? with
      | none => rw [run_of_none htoken, htoken]
      | some token =>
          obtain ⟨honward, hless⟩ := placed_onward hplaced htoken reportGap
          rw [run_succ htoken]
          exact ih honward (by omega)

end TopLevel

/-! ## Texts before and behind others -/

section Texts

variable {front back : List Char} {range other : TextRange} {token : Token}

theorem Params.typeText_eq {left right : List Char} (h : range.slice left = other.slice right) :
    typeText left range = typeText right other := by
  unfold typeText
  rw [h]

theorem TextRange.slice_before (hstart : other.start = range.start)
    (hstop : other.stop = range.stop) (h : range.stop ≤ front.length) :
    range.slice front = other.slice (front ++ back) := by
  have hle := range.start_le_stop
  unfold slice length
  rw [hstart, hstop, List.drop_append_of_le_length (by omega),
    List.take_append_of_le_length (by rw [List.length_drop]; omega)]

theorem TextRange.slice_behind (hstart : other.start = range.start + front.length)
    (hstop : other.stop = range.stop + front.length) :
    range.slice back = other.slice (front ++ back) := by
  unfold slice length
  rw [hstart, hstop, Nat.add_comm range.start, List.drop_length_add_append, Nat.add_comm,
    Nat.add_sub_add_left]

theorem Token.text_before (h : token.stop ≤ front.length) :
    token.text (front ++ back) = token.text front := by
  unfold Token.text
  rw [TextRange.slice_before rfl rfl h]

theorem Token.text_behind (token : Token) :
    (token.shift front.length).text (front ++ back) = token.text back :=
  congrArg token.fixedText?.getD (TextRange.slice_behind rfl rfl).symm

end Texts

namespace Parallel

variable (multiline : Bool) (front back : List Char)

/-- A text by itself, and with another one behind it. -/
def before : Parallel where
  left := front
  right := front ++ back
  beyond := TokenStream.behind multiline front back
  places := fun offset other => other = offset ∧ offset ≤ front.length
  tokens := fun token mate =>
    mate = token ∧ token.isTrivia = false ∧ token.offset < token.stop ∧ token.stop ≤ front.length
  nodes := fun node other => node = other
  reports := fun _ _ => True

/-- A text by itself, and behind another one. -/
def behind : Parallel where
  left := back
  right := front ++ back
  beyond := []
  places := fun offset other => other = offset + front.length
  tokens := fun token mate => mate = token.shift front.length ∧ token.isTrivia = false
  nodes := fun node other => node.shift front.length = other
  reports := fun _ _ => True

theorem remaps_before : (before multiline front back).Remaps id id id id where
  nodes := by
    intro node other
    rw [Node.remap_id, Node.remap_id]
    exact Iff.rfl
  places := fun hplaces more => by rw [hplaces.1]
  offset := fun ⟨hmate, _, hlt, hstop⟩ => ⟨by rw [hmate], Nat.le_trans (Nat.le_of_lt hlt) hstop⟩
  text := fun ⟨hmate, _, _, hstop⟩ => by rw [hmate]; exact Token.text_before hstop
  types := fun ⟨hstart, hstop⟩ =>
    Params.typeText_eq (TextRange.slice_before hstart.1 hstop.1 hstop.2)

theorem remaps_behind : (behind front back).Remaps (· + (front.length : Int)) id id id where
  nodes := by
    intro node other
    rw [Node.remap_id]
    exact Iff.rfl
  places := fun hplaces more => by
    have hoffset : _ = _ + front.length := hplaces
    rw [hoffset]
    simp only [id_eq]
    omega
  offset := fun hmate => by rw [hmate.1]; rfl
  text := fun hmate => by rw [hmate.1]; exact Token.text_behind _
  types := fun ⟨hstart, hstop⟩ => Params.typeText_eq (TextRange.slice_behind hstart hstop)

variable {multiline front back} {nodes nodes' : List Node}

theorem eq_of_before (h : List.Forall₂ (before multiline front back).nodes nodes nodes') :
    nodes' = nodes := by
  have hequal : List.Forall₂ (· = ·) nodes nodes' := h
  rw [List.forall₂_eq_eq_eq] at hequal
  exact hequal.symm

theorem eq_of_behind (h : List.Forall₂ (behind front back).nodes nodes nodes') :
    nodes' = nodes.map (Node.shift front.length) := by
  have hequal : List.Forall₂ (· = ·) (nodes.map (Node.shift front.length)) nodes' :=
    List.forall₂_map_left_iff.2 h
  rw [List.forall₂_eq_eq_eq] at hequal
  exact hequal.symm

variable (multiline front back)

theorem lawful_before : (before multiline front back).Lawful where
  builds := (remaps_before multiline front back).builds
  kind := fun hmate => by rw [hmate.1]
  text := (remaps_before multiline front back).text
  significant := fun hmate => hmate.2.1
  offset := (remaps_before multiline front back).offset
  offsetAfter := fun ⟨hmate, _, hlt, hstop⟩ => ⟨by rw [hmate], Nat.le_trans hlt hstop⟩
  stop := fun ⟨hmate, _, _, hstop⟩ => ⟨by rw [hmate], hstop⟩
  min := fun hfirst hother =>
    ⟨by rw [hfirst.1, hother.1], Nat.le_trans (Nat.min_le_left _ _) hfirst.2⟩
  max := fun hfirst hother => ⟨by rw [hfirst.1, hother.1], Nat.max_le.2 ⟨hfirst.2, hother.2⟩⟩
  length := fun hnone => by
    have htokens := List.map_eq_nil_iff.1 hnone
    have htiles := (TokenStream.tiles_lex multiline back).1
    rw [htokens] at htiles
    have hback : 0 = back.length := htiles
    refine ⟨?_, Nat.le_refl _⟩
    show (front ++ back).length = front.length
    rw [List.length_append, ← hback, Nat.add_zero]
  report := fun _ _ _ => trivial
  reportEnd := fun _ _ _ => trivial

theorem lawful_behind : (behind front back).Lawful where
  builds := (remaps_behind front back).builds
  kind := fun hmate => by rw [hmate.1]; rfl
  text := (remaps_behind front back).text
  significant := fun hmate => hmate.2
  offset := (remaps_behind front back).offset
  offsetAfter := fun {token mate} hmate => by
    rw [hmate.1]
    exact Nat.add_right_comm token.offset front.length 1
  stop := fun hmate => by rw [hmate.1]; rfl
  min := fun hfirst hother => by
    rw [hfirst, hother]
    exact (Nat.add_min_add_right _ _ _)
  max := fun hfirst hother => by
    rw [hfirst, hother]
    exact (Nat.add_max_add_right _ _ _)
  length := fun _ => List.length_append.trans (Nat.add_comm _ _)
  report := fun _ _ _ => trivial
  reportEnd := fun _ _ _ => trivial

theorem row_before :
    (before multiline front back).Row (TokenStream.lex multiline front).tokens
      ((TokenStream.lex multiline front).tokens ++ TokenStream.behind multiline front back) := by
  have hbetween := TokenStream.lex_between multiline front
  have hrow := @row_map (before multiline front back) id (TokenStream.lex multiline front).tokens
    (fun _ _ => rfl) (fun token htoken htrivia => ⟨rfl, htrivia, hbetween token htoken⟩)
    fun token htoken =>
      ⟨rfl, Nat.le_trans (Nat.le_of_lt (hbetween token htoken).1) (hbetween token htoken).2⟩
  rwa [List.map_id] at hrow

theorem row_behind (tokens : List Token) :
    (behind front back).Row tokens (tokens.map (Token.shift front.length)) := by
  have hrow := @row_map (behind front back) (Token.shift front.length) tokens (fun _ _ => rfl)
    (fun _ _ htoken => ⟨rfl, htoken⟩) fun _ _ => rfl
  rwa [show (behind front back).beyond = [] from rfl, List.append_nil] at hrow

variable {p : Parallel} {bound bound' : Nat} {agreed : Prop} {left right : ParseState}
  {token : Token} {tokens mates : List Token}

theorem Row.of_blanks (hp : p.Lawful) (h : p.Row tokens mates)
    (hblanks : ∀ blank ∈ tokens, blank.isTrivia = true) :
    mates.dropWhile Token.isTrivia = p.beyond.dropWhile Token.isTrivia := by
  induction h with
  | ended hrest => rw [hrest]
  | @token token _ _ _ htokens _ _ =>
      have htoken := hblanks token List.mem_cons_self
      rw [hp.significant htokens] at htoken
      cases htoken
  | blank _ hmate _ _ hgap' _ ih =>
      rw [List.dropWhile_cons_of_pos hmate, List.dropWhile_append_of_pos hgap']
      exact ih fun blank hblank =>
        hblanks blank (List.mem_cons_of_mem _ (List.mem_append_right _ hblank))

/-- Behind a token that is followed by blanks alone, the right parse arrives at what is beyond. -/
theorem Arrives.next_of_blanks (hp : p.Lawful) (h : p.Arrives bound bound' agreed left right)
    (htoken : left.token? = some token)
    (hblanks : ∀ blank ∈ left.cursor.ahead.tail, blank.isTrivia = true) :
    left.next.token? = none ∧ agreed ∧ right.next.cursor.Placed p.right ∧
      right.next.cursor.ahead = p.beyond.dropWhile Token.isTrivia := by
  have hbegun : left.cursor.Begun := Cursor.begun_of_token? htoken
  have hnil : left.next.cursor.ahead = [] :=
    (Cursor.ahead_next hbegun).trans (List.dropWhile_eq_nil_iff.2 hblanks)
  have hnone : left.next.token? = none := by
    refine (Cursor.token?_of_begun (left.leadsTo_next.begun hbegun)).trans ?_
    rw [hnil]
    rfl
  rcases h with hlost | ⟨hagreed, hstates | hnext⟩
  · rw [hlost.token?] at htoken
    cases htoken
  · refine ⟨hnone, hagreed, ParseState.placed_next hstates.placed', ?_⟩
    have hhead : left.cursor.ahead.head? = some token :=
      (Cursor.token?_of_begun hbegun).symm.trans htoken
    obtain ⟨blanks, hahead⟩ := List.head?_eq_some_iff.1 hhead
    have hrow := hstates.row
    rw [hahead] at hrow hblanks
    obtain ⟨mate, rest, hmates, -, hrest⟩ := hrow.of_token (hstates.offTrivia token htoken)
    refine (Cursor.ahead_next hstates.placed'.begun).trans ?_
    rw [hmates]
    exact hrest.of_blanks hp hblanks
  -- both parses are to go on once more, but the left one is at its end then
  · refine ⟨hnone, hagreed, hnext.placed', ?_⟩
    have hpast := hnext.eq_past hnone
    rw [hpast.1]
    exact List.head?_eq_none_iff.1
      ((Cursor.token?_of_begun hnext.placed'.begun).symm.trans hpast.2)

end Parallel

/-! ## Both texts -/

namespace TopLevel

variable {p : Parallel} {bound bound' : Nat} {before before' : List Node} {read other : TopLevel}
  {reportGap : Bool} {token : Token}

/-- Step by step, parses that are not stopped read alike, until the left one is lost. -/
theorem alike_run (hp : p.Lawful) (h : Alike p bound bound' .never before before' read other)
    (reportGap : Bool) (count : Nat) :
    p.Lost (run p.left reportGap count read).state ∨
      Alike p bound bound' .never before before' (run p.left reportGap count read)
        (run p.right reportGap count other) := by
  induction count generalizing read other with
  | zero => exact .inr h
  | succ count ih =>
      rcases h.states.cases hp with ⟨hleft, hright, -⟩ | ⟨token, mate, hleft, hright, htokens⟩
      · rw [run_of_none hleft, run_of_none hright]
        exact .inr h
      · rw [run_succ hleft, run_succ hright]
        rcases h.onward hp reportGap htokens with hlost | halike
        · rw [run_of_none hlost.token?]
          exact .inl hlost
        · exact ih halike

theorem state_declaration_asked (source : List Char) (reportGap : Bool) (token : Token)
    (read : TopLevel) :
    (read.asked.declaration source reportGap token).state =
      (read.declaration source reportGap token).state := by
  unfold declaration
  split
  · rfl
  · rfl
  · rfl
  · unfold gap asked
    dsimp only
    split <;> rfl

variable {multiline : Bool} {front back : List Char}

/-- The declaration that closes a text is the same with another text behind it, and the parse
goes on with the tokens of that one. -/
theorem Closes.onward (h : Closes front reportGap token read)
    (halike : Alike (.before multiline front back) bound bound' .never [] [] read other) :
    (read.onward front reportGap token).state.token? = none ∧
      other.state.token? = some token ∧
      (other.onward (front ++ back) reportGap token).declarations =
        (read.onward front reportGap token).declarations ∧
      (other.onward (front ++ back) reportGap token).state.cursor.Placed (front ++ back) ∧
      (other.onward (front ++ back) reportGap token).state.cursor.ahead =
        (TokenStream.behind multiline front back).dropWhile Token.isTrivia := by
  have hp := Parallel.lawful_before multiline front back
  rcases halike.states.cases hp with ⟨hnone, -⟩ | ⟨found, mate, hleft, hright, htokens⟩
  · rw [h.token?] at hnone
    cases hnone
  obtain rfl := Option.some.inj (h.token?.symm.trans hleft)
  have hmate : mate = token := htokens.1
  rw [hmate] at htokens hright
  obtain ⟨nodes, nodes', hnodes, hnodes', -, harrives⟩ := arrives_declaration hp read.asked
    other.asked halike.states halike.reportedGap reportGap htokens
  have hbrace := h.brace
  have hblanks := h.blanks
  rw [← state_declaration_asked] at hbrace hblanks
  obtain ⟨brace, hbrace, -⟩ := ParseState.token?_of_isAt hbrace
  obtain ⟨hend, hequal, hplaced, hahead⟩ := harrives.next_of_blanks hp hbrace hblanks
  refine ⟨hend, hright, ?_, hplaced, hahead⟩
  obtain ⟨old, old', hold, hold', hrelated⟩ := halike.declarations
  have hsame : other.declarations = read.declarations := by
    rw [hold, hold', Parallel.eq_of_before hrelated]
  refine hnodes'.trans ((congrArg₂ (· ++ ·) hsame ?_).trans hnodes.symm)
  exact Parallel.eq_of_before hequal

/-- A text that is closed is read first, and then the parse goes on with the text behind it. -/
theorem closes_run {count : Nat}
    (hjoins : TokenStream.Joins multiline front back)
    (h : Closes front reportGap token
      (run front reportGap count (first (TokenStream.lex multiline front).tokens))) :
    let read := run front reportGap (count + 1) (first (TokenStream.lex multiline front).tokens)
    let other := run (front ++ back) reportGap (count + 1)
      (first (TokenStream.lex multiline (front ++ back)).tokens)
    read.state.token? = none ∧ other.declarations = read.declarations ∧
      other.state.cursor.Placed (front ++ back) ∧
      other.state.cursor.ahead =
        (TokenStream.behind multiline front back).dropWhile Token.isTrivia := by
  have hp := Parallel.lawful_before multiline front back
  have hrow := Parallel.row_before multiline front back
  rw [← hjoins] at hrow
  -- whoever is lost stays lost, but the last declaration is still to come
  have hrun : ¬ (Parallel.before multiline front back).Lost
      (run front reportGap count (first (TokenStream.lex multiline front).tokens)).state := by
    intro hlost
    have htoken := h.token?
    rw [hlost.token?] at htoken
    cases htoken
  have hmeets := Parallel.meets_ofTokens hp hrow (placed_ofTokens multiline front)
    (placed_ofTokens multiline (front ++ back)) trivial (Nat.lt_succ_self _) (Nat.lt_succ_self _)
  obtain ⟨-, hstates⟩ := hmeets.resolve_left fun hlost => hrun (by
    rw [run_of_none (show (first (TokenStream.lex multiline front).tokens).state.token? = none
      from hlost.token?)]
    exact hlost)
  have halike := (alike_run hp (alike_begin .never hstates) reportGap count).resolve_left hrun
  obtain ⟨hend, hright, honward⟩ := h.onward halike
  intro read other
  have hread : read = _ := (run_add count 1 _).trans (run_succ h.token?)
  have hother : other = _ := (run_add count 1 _).trans (run_succ hright)
  rw [hread, hother]
  exact ⟨hend, honward⟩

/-- From where a text begins behind another one, it is read as it is by itself, further on. -/
theorem run_behind (hplaced : other.state.cursor.Placed (front ++ back))
    (hahead : other.state.cursor.ahead =
      (TokenStream.behind multiline front back).dropWhile Token.isTrivia) (reportGap : Bool) :
    let read := readAll back reportGap .never (.ofTokens (TokenStream.lex multiline back).tokens)
    (run (front ++ back) reportGap (other.state.remaining + 1) other).declarations =
      other.declarations ++ read.declarations.map (Node.shift front.length) := by
  have hp := Parallel.lawful_behind front back
  have hrow := Parallel.row_behind front back (TokenStream.lex multiline back).tokens
  obtain ⟨-, hstates⟩ := (Parallel.meets_of_row _ _ (placed_ofTokens multiline back) hplaced
    (Nat.lt_succ_self _) (Nat.lt_succ_self _) trivial (Cursor.ahead_settle [] _) hahead
    (hrow.dropWhile hp)).resolve_left (Parallel.not_lost rfl _)
  have hbegin : Alike (.behind front back) _ _ .never [] other.declarations
      (first (TokenStream.lex multiline back).tokens) other :=
    ⟨⟨[], [], rfl, (List.append_nil _).symm, .nil⟩, .inr fun _ _ => trivial, hstates,
      fun _ => rfl, fun _ => rfl⟩
  have halike := (alike_iterate hp reportGap hbegin).resolve_left
    (Parallel.not_lost rfl _)
  obtain ⟨nodes, nodes', hnodes, hnodes', hrelated⟩ := halike.declarations
  refine hnodes'.trans ?_
  rw [Parallel.eq_of_behind hrelated]
  exact congrArg (fun nodes => other.declarations ++ nodes.map (Node.shift front.length))
    hnodes.symm

end TopLevel

namespace Parsed

variable {options : ParseOptions} {front back : List Char}

/-- The text ends with the brace of its last declaration, but for blanks. -/
def Closed (options : ParseOptions) (source : List Char) : Prop :=
  ∃ count token, TopLevel.Closes source options.reportGap token
    (TopLevel.run source options.reportGap count
      (TopLevel.first (TokenStream.lex options.multiline source).tokens))

theorem children_ofText {source : List Char} {count : Nat}
    (h : (TopLevel.run source options.reportGap count
      (TopLevel.first (TokenStream.lex options.multiline source).tokens)).state.token? = none) :
    (ofText options .never source).root.children =
      (TopLevel.run source options.reportGap count
        (TopLevel.first (TokenStream.lex options.multiline source).tokens)).declarations :=
  congrArg TopLevel.declarations (TopLevel.run_unique h (TopLevel.token?_run
    (TopLevel.placed_ofTokens options.multiline source) (Nat.lt_succ_self _)))

/-- A closed text is read independently of what follows: the declarations of both texts together
are those of the first one and, behind them, those of the second one by itself, all of whose
offsets and ends are as much further on as the first text is long. -/
theorem ofText_append (hjoins : TokenStream.Joins options.multiline front back)
    (hclosed : Closed options front) :
    (ofText options .never (front ++ back)).root.children =
        (ofText options .never front).root.children ++
          (ofText options .never back).root.children.map (Node.shift front.length) ∧
      ∀ node : Node, (node.shift front.length).offset = node.offset + front.length ∧
        (node.shift front.length).endOffset = node.endOffset + front.length := by
  obtain ⟨count, token, hcloses⟩ := hclosed
  obtain ⟨hend, hdeclarations, hplaced, hahead⟩ := TopLevel.closes_run hjoins hcloses
  have hback := TopLevel.run_behind hplaced hahead options.reportGap
  have hendAll := @TopLevel.token?_run _ options.reportGap _ _ hplaced (Nat.lt_succ_self _)
  rw [← TopLevel.run_add] at hback hendAll
  refine ⟨?_, fun node =>
    ⟨Node.offset_shift front.length node, Node.endOffset_shift front.length node⟩⟩
  rw [children_ofText hend, children_ofText hendAll, ← hdeclarations]
  exact hback

def closedClass : List Char :=
  "class a \x7b file \x7b 'b': c => $d \x7d \x7d # e\n".toList

def definition : List Char :=
  " define f($g = 1) \x7b notify $g".toList

def classWord : Token :=
  ⟨.kwClass, .sized 0 5, ⟨false, true, false, false⟩, some "class".toList⟩

theorem ofText_append_definition :
    TokenStream.Joins ParseOptions.standard.multiline closedClass definition ∧
      Closed .standard closedClass ∧
      (ofText .standard .never (closedClass ++ definition)).root.children =
        (ofText .standard .never closedClass).root.children ++
          (ofText .standard .never definition).root.children.map
            (Node.shift closedClass.length) ∧
      (ofText .standard .never (closedClass ++ definition)).root.children.length = 2 := by
  have hjoins : TokenStream.Joins ParseOptions.standard.multiline closedClass definition := by
    unfold TokenStream.Joins
    decide +kernel
  have hclosed : Closed .standard closedClass :=
    ⟨0, classWord, by decide +kernel, by decide +kernel, by decide +kernel, by decide +kernel⟩
  exact ⟨hjoins, hclosed, (ofText_append hjoins hclosed).1, by decide +kernel⟩

end Parsed

end Manifest
