import Manifest.Proofs.Bodies.Scans
import Manifest.Proofs.Whole.Unwarned

/-!
# Declarations without bodies

A declaration without a body is reported, wherever it stands.  There is one exception: when a text
ends in the name of a defined type, that is kept without its name and its body, and without a
report.
-/

namespace Manifest

/-- The tokens end in the name of a defined type that begins with a word: behind it there are
blanks, and then nothing that ends a name. -/
structure Token.EndInName (tokens : List Token) (word : Token) : Prop where
  kind : word.kind = .kwDefine
  split : ∃ before blanks name, tokens = before ++ word :: (blanks ++ name) ∧
    (∀ blank ∈ blanks, blank.isTrivia = true) ∧ ∀ part ∈ name, part.kind ∉ defineNameStops

/-! ## Names that are not over -/

namespace Cursor

variable {source : List Char} {stops : List TokenKind} {cursor other : Cursor} {word : Token}

/-- No text is collected only where nothing stops it before the end. -/
theorem collectFrom_none {behind ahead : List Token}
    (h : collectFrom source stops behind ahead = (none, other)) :
    (∀ token ∈ ahead, token.kind ∉ stops) ∧ other.next.token? = none := by
  induction ahead generalizing behind with
  | nil =>
      obtain ⟨-, rfl⟩ := Prod.mk.inj h
      exact ⟨List.forall_mem_nil _, rfl⟩
  | cons token ahead ih =>
      unfold collectFrom at h
      split at h
      · cases h
      · rename_i hstop
        obtain ⟨htext, hcursor⟩ := Prod.mk.inj h
        have hrest : collectFrom source stops (token :: behind) ahead = (none, other) :=
          Prod.ext (Option.map_eq_none_iff.1 htext) hcursor
        obtain ⟨hahead, hend⟩ := ih hrest
        exact ⟨List.forall_mem_cons.2 ⟨fun hmem => hstop (List.contains_iff_mem.2 hmem), hahead⟩,
          hend⟩

theorem endInName_of_none (hbegun : cursor.Begun) (hword : cursor.token? = some word)
    (hkind : word.kind = .kwDefine)
    (h : cursor.next.collectText source defineNameStops = (none, other)) :
    Token.EndInName cursor.tokens word ∧ other.next.token? = none := by
  rw [Parallel.collectText_of_begun (cursor.leadsTo_next.begun hbegun), ahead_next hbegun] at h
  obtain ⟨hname, hend⟩ := collectFrom_none h
  have hahead : cursor.ahead = word :: cursor.ahead.tail :=
    List.eq_cons_of_mem_head? ((token?_of_begun hbegun).symm.trans hword)
  refine ⟨⟨hkind, cursor.behind.reverse, cursor.ahead.tail.takeWhile Token.isTrivia,
    cursor.ahead.tail.dropWhile Token.isTrivia, ?_, ?_, hname⟩, hend⟩
  · rw [List.takeWhile_append_dropWhile, ← hahead]
    exact cursor.tokens_eq
  · exact fun blank hblank => List.mem_takeWhile_imp hblank

end Cursor

/-! ## Runs that do not warn -/

namespace TopLevel

variable {source : List Char} {first : ParseState} {read : TopLevel} {token : Token}
  {interruption : Interruption}

/-- The text ended in the name of a defined type, which is kept behind other declarations. -/
def Cut (first : ParseState) (read : TopLevel) : Prop :=
  ∃ front word, read.declarations = front ++ [Node.defineDecl word.offset none [] none] ∧
    Token.EndInName first.cursor.tokens word ∧ first.Bodies front read.state ∧
    read.state.token? = none

/-- What was read from a state on has its bodies, or there is a report; but for a last
declaration that was cut off. -/
structure Tells (first : ParseState) (read : TopLevel) : Prop where
  leads : first.cursor.LeadsTo read.state.cursor
  bodies : first.Bodies read.declarations read.state ∨ Cut first read

theorem cut_defineDecl {cursor : Cursor} (hplaced : first.cursor.Placed source)
    (hleads : first.cursor.LeadsTo read.state.cursor)
    (hbodies : first.Bodies read.declarations read.state)
    (htoken : read.state.token? = some token) (hkind : token.kind = .kwDefine)
    (hname : read.state.next.cursor.collectText source defineNameStops = (none, cursor)) :
    Cut first (read.onward source false token) := by
  have hbegun : read.state.cursor.Begun := (hleads.placed hplaced).begun
  have hoffset : read.state.offset source = token.offset := ParseState.offset_of_token? htoken
  obtain ⟨hends, hnone⟩ := Cursor.endInName_of_none hbegun htoken hkind hname
  have honward : read.onward source false token =
      { read.asked with
        declarations := read.declarations ++ [Node.defineDecl token.offset none [] none]
        state := ParseState.next { read.state.next with cursor } } := by
    unfold onward declaration
    rw [hkind]
    dsimp only
    rw [show read.asked.state = read.state from rfl, ParseState.defineDecl_of_none hname, hoffset]
    rfl
  rw [honward]
  rw [hleads.tokens_eq] at hends
  exact ⟨read.declarations, token, rfl, hends, hbodies, hnone⟩

theorem bodies_onward (hplaced : first.cursor.Placed source) (h : Tells first read)
    (htoken : read.state.token? = some token) :
    first.Bodies (read.onward source false token).declarations
        (read.onward source false token).state ∨
      Cut first (read.onward source false token) := by
  have hscan := Scan.bodied_scan source
  have hbodies : first.Bodies read.declarations read.state := by
    refine h.bodies.resolve_right fun ⟨_, _, _, _, _, hnone⟩ => ?_
    rw [htoken] at hnone
    cases hnone
  cases hdeclares : token.declares with
  | false =>
      rw [onward_unwarned hdeclares]
      exact .inl hbodies
  | true =>
      rcases Token.kind_of_declares hdeclares with hkind | hkind | hkind
      · left
        unfold onward declaration
        rw [hkind]
        exact hbodies.append (ParseState.bodies_classDecl hscan read.state)
      · left
        unfold onward declaration
        rw [hkind]
        exact hbodies.append (ParseState.bodies_nodeDecl hscan read.state)
      · rcases hname : read.state.next.cursor.collectText source defineNameStops with
          ⟨_ | name, cursor⟩
        · right
          exact cut_defineDecl hplaced h.leads hbodies htoken hkind hname
        · left
          unfold onward declaration
          rw [hkind]
          exact hbodies.append (ParseState.bodies_defineDecl hscan hname)

theorem Tells.onward (hplaced : first.cursor.Placed source) (h : Tells first read)
    (htoken : read.state.token? = some token) :
    Tells first (read.onward source false token) where
  leads := by
    obtain ⟨nodes, -, hreads⟩ :=
      @reads_declaration source read.asked (h.leads.placed hplaced) false token
    exact h.leads.trans (read.state.leadsTo_next.trans hreads.leads)
  bodies := bodies_onward hplaced h htoken

theorem Tells.step (hplaced : first.cursor.Placed source) (h : Tells first read) :
    Tells first (step source false interruption read).state := by
  cases htoken : read.state.token? with
  | none =>
      rw [step_of_none htoken]
      exact h
  | some token =>
      rw [step_of_token htoken]
      split
      · exact ⟨h.leads, h.bodies⟩
      · split
        · exact ⟨h.leads, h.bodies⟩
        · exact h.onward hplaced htoken

theorem tokens_first (tokens : List Token) :
    (ParseState.ofTokens tokens).next.cursor.tokens = tokens :=
  (Cursor.start tokens).leadsTo_next.tokens_eq

theorem tells_readAll (multiline : Bool) (interruption : Interruption) (source : List Char) :
    Tells (ParseState.ofTokens (TokenStream.lex multiline source).tokens).next
      (readAll source false interruption
        (.ofTokens (TokenStream.lex multiline source).tokens)) := by
  have hplaced := placed_ofTokens multiline source
  apply iterate_invariant (Tells _) fun read hread => hread.step hplaced
  exact ⟨.refl _, .inl (ParseState.bodies_nothing _)⟩

end TopLevel

/-! ## Manifests -/

namespace Parsed

variable (options : ParseOptions) (interruption : Interruption) (source : List Char)

/-- The errors of a parser are the reports of one that does not warn. -/
theorem mem_errors_iff {report : Diagnostic} :
    report ∈ errors options interruption source ↔
      report ∈ (read ⟨options.multiline, false⟩ interruption source).state.reported := by
  obtain ⟨multiline, reportGap⟩ := options
  have hreported := (sameButWarnings_read interruption source multiline).reported
  rw [mem_errors]
  cases reportGap with
  | true => rw [hreported, List.mem_filter, Bool.not_eq_true']
  | false =>
      refine and_iff_left_of_imp fun hreport => ?_
      rw [hreported] at hreport
      simpa using (List.mem_filter.1 hreport).2

theorem hasErrors_of_errors (h : errors options interruption source ≠ []) :
    (ofText options interruption source).hasErrors = true := by
  obtain ⟨error, herror⟩ := List.exists_mem_of_ne_nil _ h
  obtain ⟨hreport, hsevere⟩ := List.mem_filter.1 herror
  apply List.any_eq_true.2
  refine ⟨error, ?_, hsevere⟩
  rw [merged_ofText]
  exact List.mem_merge.2 (.inr hreport)

theorem root_eq :
    (ofText options interruption source).root =
      (read ⟨options.multiline, false⟩ interruption source).root source := by
  obtain ⟨multiline, reportGap⟩ := options
  cases reportGap with
  | false => rfl
  | true =>
      have hsame := sameButWarnings_read interruption source multiline
      exact congrArg (Node.mk 0 (some source.length) (.element .root)) hsame.declarations.symm

/-- Behind declarations that have their bodies only the last one can lack its body. -/
theorem eq_of_lacksBody {root node : Node} {front : List Node} {word : Token}
    (hroot : root.lacksBody = false)
    (hlast : root.children = front ++ [Node.defineDecl word.offset none [] none])
    (hfront : ∀ declaration ∈ front, declaration.Bodied) (hmem : node ∈ root.walk)
    (hlacks : node.lacksBody = true) : node = Node.defineDecl word.offset none [] none := by
  rcases root with ⟨offset, ownEnd?, form, children⟩
  have hcut : (Node.defineDecl word.offset none [] none).walk =
      [Node.defineDecl word.offset none [] none] := by
    simp [Node.defineDecl, Node.walk, Node.walkAll]
  rw [Node.walk, List.mem_cons] at hmem
  rcases hmem with rfl | hbelow
  · rw [hroot] at hlacks
    cases hlacks
  · obtain ⟨declaration, hdeclaration, hnode⟩ := Node.mem_walkAll.1 hbelow
    rw [show children = _ from hlast, List.mem_append, List.mem_singleton] at hdeclaration
    rcases hdeclaration with hearlier | rfl
    · rw [hfront declaration hearlier node hnode] at hlacks
      cases hlacks
    · rw [hcut] at hnode
      exact List.mem_singleton.1 hnode

/-- The text ends in the name of a defined type, and the node is what is kept of that: the last
declaration, without a name and without a body. -/
def EndsInName (node : Node) : Prop :=
  ∃ word, Token.EndInName (ofText options interruption source).tokens word ∧
    node = Node.defineDecl word.offset none [] none ∧
    (ofText options interruption source).root.children.getLast? = some node

/-- A manifest in which some declaration has no body has an error, unless that declaration is the
last one and the text ends in its name. -/
theorem lacksBody_ofText {node : Node}
    (hmem : node ∈ (ofText options interruption source).root.walk)
    (hlacks : node.lacksBody = true) :
    (ofText options interruption source).hasErrors = true ∨
      EndsInName options interruption source node := by
  have hroot := root_eq options interruption source
  have htells := TopLevel.tells_readAll options.multiline interruption source
  by_cases hnone :
      (read ⟨options.multiline, false⟩ interruption source).state.reported = []
  · right
    rw [hroot] at hmem
    rcases htells.bodies with hbodies | ⟨front, word, hlast, hends, hfront, -⟩
    · have hbodied := Node.bodied_iff.2 ⟨rfl, (hbodies hnone).2⟩ node hmem
      rw [hlacks] at hbodied
      cases hbodied
    · have hcut : node = Node.defineDecl word.offset none [] none :=
        eq_of_lacksBody rfl hlast (hfront hnone).2 hmem hlacks
      refine ⟨word, ?_, hcut, ?_⟩
      · rw [TopLevel.tokens_first] at hends
        exact hends
      · have hchildren : (ofText options interruption source).root.children = _ :=
          (congrArg Node.children hroot).trans hlast
        rw [hchildren, hcut, List.getLast?_concat]
  · left
    apply hasErrors_of_errors
    obtain ⟨report, hreport⟩ := List.exists_mem_of_ne_nil _ hnone
    exact List.ne_nil_of_mem ((mem_errors_iff options interruption source).2 hreport)

def unfinishedNode : List Char :=
  "node a".toList

/-- The missing body of a node declaration is an error. -/
theorem lacksBody_unfinishedNode :
    ∃ node ∈ (ofText .standard .never unfinishedNode).root.walk, node.lacksBody = true ∧
      (ofText .standard .never unfinishedNode).hasErrors = true := by
  have hlacks : ∃ node ∈ (ofText .standard .never unfinishedNode).root.walk,
      node.lacksBody = true := by
    decide +kernel
  have hkind : (ofText .standard .never unfinishedNode).root.children.getLast?.map Node.kind =
      some .nodeDecl := by
    decide +kernel
  obtain ⟨node, hmem, hnode⟩ := hlacks
  refine ⟨node, hmem, hnode, (lacksBody_ofText .standard .never _ hmem hnode).resolve_right ?_⟩
  rintro ⟨word, -, rfl, hlast⟩
  rw [hlast] at hkind
  cases hkind

def unfinishedDefine : List Char :=
  "define a".toList

/-- The defined type has no body, and nothing is reported. -/
theorem lacksBody_unfinishedDefine :
    (∃ node ∈ (ofText .standard .never unfinishedDefine).root.walk, node.lacksBody = true) ∧
      (ofText .standard .never unfinishedDefine).diagnostics = [] := by
  decide +kernel

end Parsed

end Manifest
