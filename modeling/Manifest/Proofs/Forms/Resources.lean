import Manifest.Proofs.Forms.Facing
import Manifest.Proofs.Scanning.Depth

/-!
# Resources that are written out

A resource is its type, an opening brace, a title with a colon, attributes with commas between
them, and a closing brace; a type that begins with a capital has no title.  A scan that comes to
one outside of brackets makes one node of it, with its title and all of its attributes, if no
bracket before it closed what was not open.
-/

namespace Manifest

/-! ## Forms -/

structure AttributeForm where
  name : Token
  arrow : Token
  value : List Token

inductive TitleForm where
  | word (token : Token)
  | list (opening : Token) (titles : List Token) (closing : Token)

/-- A resource as it is written, without its blanks. -/
structure ResourceForm where
  type : Token
  opening : Token
  /-- The title and its colon. -/
  title? : Option (TitleForm × Token)
  /-- The attributes that have a comma behind them. -/
  attributes : List (AttributeForm × Token)
  /-- An attribute right before the closing brace. -/
  last? : Option AttributeForm
  closing : Token

namespace AttributeForm

def tokens (form : AttributeForm) : List Token :=
  form.name :: form.arrow :: form.value

structure WellFormed (form : AttributeForm) : Prop where
  name : form.name.kind = .star ∨
    form.name.kind.category ∈ [TokenCategory.identifier, .keyword, .function]
  arrow : form.arrow.kind = .paramAssign
  value : PassableRun [.comma] [] form.value

def Shown (source : List Char) (entry : AttributeForm × Token) (node : Node) : Prop :=
  ∃ value, node = ResourceAttributes.attributeNode source entry.1.name (some value) ∧
    value.Stretches (entry.1.value.headD entry.2) entry.2

end AttributeForm

namespace TitleForm

def tokens : TitleForm → List Token
  | .word token => [token]
  | .list opening titles closing => opening :: (titles ++ [closing])

def WellFormed : TitleForm → Prop
  | .word token => token.kind ∈ [TokenKind.string, .identifier, .kwDefault, .variable]
  | .list opening titles closing =>
      opening.kind = .leftBracket ∧ PlainRun [] titles ∧ closing.kind = .rightBracket

/-- The node of a title: a variable, a string that names a class if that is the type, any other
string or word, or the stretch of a list. -/
def Shown (source : List Char) (type : List Char) (node : Node) : TitleForm → Prop
  | .word token =>
      if token.kind = .variable then
        node = Node.plainVariable token.offset (token.text source)
      else if token.kind = .string ∧ type = classResourceType then
        node = ParseState.quotedClassRef source token
      else
        node = Node.string token.offset (token.text source)
  | .list opening _ closing => node.Stretches opening closing

end TitleForm

namespace ResourceForm

def titleTokens (form : ResourceForm) : List Token :=
  match form.title? with
  | some (title, colon) => title.tokens ++ [colon]
  | none => []

def entryTokens (entry : AttributeForm × Token) : List Token :=
  entry.1.tokens ++ [entry.2]

def lastTokens (form : ResourceForm) : List Token :=
  (form.last?.map AttributeForm.tokens).getD []

def tokens (form : ResourceForm) : List Token :=
  form.type :: form.opening :: (form.titleTokens ++
    (form.attributes.flatMap entryTokens ++ (form.lastTokens ++ [form.closing])))

def entries (form : ResourceForm) : List (AttributeForm × Token) :=
  form.attributes ++ (form.last?.map fun entry => (entry, form.closing)).toList

structure WellFormed (source : List Char) (form : ResourceForm) : Prop where
  opening : form.opening.kind = .leftBrace
  untitled : form.title? = none →
    form.type.kind = .identifier ∧ startsWithCapital (form.type.text source) = true
  titled : ∀ title colon, form.title? = some (title, colon) →
    (form.type.kind = .identifier ∧ startsWithCapital (form.type.text source) = false ∨
      form.type.kind = .kwClass ∧ form.type.text source = classResourceType) ∧
    title.WellFormed ∧ colon.kind = .colon
  attributes : ∀ entry ∈ form.attributes, entry.1.WellFormed ∧ entry.2.kind = .comma
  last : ∀ entry, form.last? = some entry → entry.WellFormed
  closing : form.closing.kind = .rightBrace

/-- The node of a resource: it takes all of the form, and has its title and its attributes. -/
def Shown (source : List Char) (form : ResourceForm) (node : Node) : Prop :=
  ∃ title? attributes,
    node = Node.resource form.type.offset (form.type.text source) title? attributes
      (some form.closing.stop) ∧
    node.endOffset = form.closing.stop ∧
    Option.Rel (fun (title : TitleForm × Token) node =>
      title.1.Shown source (form.type.text source) node) form.title? title? ∧
    List.Forall₂ (AttributeForm.Shown source) form.entries attributes

end ResourceForm

/-! ## Attributes -/

namespace ResourceAttributes

variable {source : List Char} {state : ParseState} {form : AttributeForm} {stop : Token}
  {rest : List Token} {attributes : List Node}

theorem kinds_of_name {kind : TokenKind} (h : kind = .star ∨
    kind.category ∈ [TokenCategory.identifier, .keyword, .function]) :
    kind ≠ .rightBrace ∧ kind ≠ .paramAssign ∧ kind ≠ .comma := by
  rcases h with rfl | h
  · decide
  · revert h
    cases kind <;> decide

theorem reads_attribute (hplaced : state.cursor.Placed source)
    (hfaces : state.Faces (form.tokens ++ stop :: rest)) (hform : form.WellFormed)
    (hstop : attributeValueStops.contains stop.kind = true) (attributes : List Node) :
    ∃ value after,
      GoesOn (step source (Manifest.scan source)) 2 ⟨attributes, none, none, state⟩
        ⟨attributes, some form.name, some value, after⟩ ∧
      state.Passes source (form.value.headD stop) stop rest (value, after) := by
  obtain ⟨hbrace, harrow, hcomma⟩ := kinds_of_name hform.name
  have hvalue : state.next.Faces (form.arrow :: (form.value ++ stop :: rest)) := hfaces.next
  -- A value passes the braces that end bodies, as it is properly nested.
  have hrun : PassableRun attributeValueStops [] form.value := hform.value.or_closing .brace
  have hpasses := Scan.passes_here (ParseState.placed_next (ParseState.placed_next hplaced))
    hvalue.next hrun (by decide) hstop
  have hnames : form.name.namesAttribute = true := by
    unfold Token.namesAttribute
    rcases hform.name with hstar | hcategory
    · rw [hstar]
      rfl
    · rw [List.contains_iff_mem.2 hcategory, Bool.or_true]
  have hname : step source (Manifest.scan source) ⟨attributes, none, none, state⟩ =
      .again ⟨attributes, some form.name, none, state.next⟩ := by
    unfold step
    dsimp only
    rw [hfaces.token?]
    simp [hbrace, harrow, hcomma, hnames]
  have hread : step source (Manifest.scan source)
      ⟨attributes, some form.name, none, state.next⟩ =
        .again ⟨attributes, some form.name,
          some ((Manifest.scan source).here source attributeValueStops state.next.next).1,
          ((Manifest.scan source).here source attributeValueStops state.next.next).2⟩ := by
    unfold step
    dsimp only
    rw [hvalue.token?]
    simp [hform.arrow]
  exact ⟨((Manifest.scan source).here source attributeValueStops state.next.next).1,
    ((Manifest.scan source).here source attributeValueStops state.next.next).2,
    (goesOn_again hname).trans (goesOn_again hread),
    ⟨hpasses.stretches, hpasses.faces, hpasses.reported, hpasses.placed⟩⟩

theorem reads_entries {entries : List (AttributeForm × Token)}
    (hplaced : state.cursor.Placed source)
    (hfaces : state.Faces (entries.flatMap ResourceForm.entryTokens ++ rest))
    (hforms : ∀ entry ∈ entries, entry.1.WellFormed ∧ entry.2.kind = .comma)
    (attributes : List Node) :
    ∃ nodes after,
      GoesOn (step source (Manifest.scan source)) (3 * entries.length)
        ⟨attributes, none, none, state⟩ ⟨attributes ++ nodes, none, none, after⟩ ∧
      List.Forall₂ (AttributeForm.Shown source) entries nodes ∧ after.Faces rest ∧
      after.reported = state.reported ∧ after.cursor.Placed source := by
  induction entries generalizing state attributes with
  | nil =>
      refine ⟨[], state, ?_, .nil, hfaces, rfl, hplaced⟩
      rw [List.append_nil]
      exact .refl _ _
  | cons entry entries ih =>
      obtain ⟨⟨hform, hcomma⟩, hothers⟩ := List.forall_mem_cons.1 hforms
      have hfirst : state.Faces (entry.1.tokens ++ entry.2 ::
          (entries.flatMap ResourceForm.entryTokens ++ rest)) := by
        rw [List.flatMap_cons, List.append_assoc] at hfaces
        simpa [ResourceForm.entryTokens] using hfaces
      obtain ⟨value, after, hread, hpasses⟩ := reads_attribute hplaced hfirst hform
        (by rw [hcomma]; rfl) attributes
      have hclose : step source (Manifest.scan source)
          ⟨attributes, some entry.1.name, some value, after⟩ =
            .again ⟨attributes ++ [attributeNode source entry.1.name (some value)], none, none,
              after.next⟩ := by
        unfold step
        dsimp only
        rw [hpasses.faces.token?]
        simp [hcomma, close]
      obtain ⟨nodes, last, hreadAll, hshown, hlast, hreported, hplacedLast⟩ :=
        ih (ParseState.placed_next hpasses.placed) hpasses.faces.next hothers
          (attributes ++ [attributeNode source entry.1.name (some value)])
      rw [List.append_assoc] at hreadAll
      refine ⟨attributeNode source entry.1.name (some value) :: nodes, last, ?_,
        .cons ⟨value, rfl, hpasses.stretches⟩ hshown, hlast, hreported.trans hpasses.reported,
        hplacedLast⟩
      rw [List.length_cons, Nat.mul_succ, Nat.add_comm]
      exact (hread.trans (goesOn_again hclose)).trans hreadAll

theorem reads_readAll {form : ResourceForm} (hplaced : state.cursor.Placed source)
    (hfaces : state.next.Faces (form.attributes.flatMap ResourceForm.entryTokens ++
      (form.lastTokens ++ form.closing :: rest)))
    (hform : form.WellFormed source) :
    List.Forall₂ (AttributeForm.Shown source) form.entries
        (readAll source (Manifest.scan source) state).attributes ∧
      (readAll source (Manifest.scan source) state).state.Faces (form.closing :: rest) ∧
      (readAll source (Manifest.scan source) state).state.reported = state.reported := by
  obtain ⟨nodes, after, hread, hshown, hbehind, hreported, hplacedAfter⟩ :=
    reads_entries (ParseState.placed_next hplaced) hfaces hform.attributes []
  have hend : ∀ read : ResourceAttributes, read.state.Faces (form.closing :: rest) →
      step source (Manifest.scan source) read = .done read := by
    intro read hclosing
    unfold step
    rw [hclosing.token?]
    exact if_pos hform.closing
  have hlength := hfaces.toSees.length_le
  have hentries : 3 * form.attributes.length ≤
      (form.attributes.flatMap ResourceForm.entryTokens).length :=
    Token.length_flatMap_ge (by simp [ResourceForm.entryTokens, AttributeForm.tokens]) _
  rw [List.length_append, List.length_append, List.length_cons] at hlength
  unfold readAll ResourceForm.entries
  dsimp only
  cases hlast : form.last? with
  | none =>
      unfold ResourceForm.lastTokens at hbehind hlength
      rw [hlast] at hbehind hlength
      have hclosing : after.Faces (form.closing :: rest) := hbehind
      rw [hread.iterate_eq (hend ⟨_, _, _, after⟩ hclosing) (by omega)]
      refine ⟨?_, hclosing, hreported⟩
      rw [Option.map_none, Option.toList_none, List.append_nil]
      exact hshown
  | some entry =>
      unfold ResourceForm.lastTokens at hbehind hlength
      rw [hlast] at hbehind hlength
      have htwo : 2 ≤ entry.tokens.length := by simp [AttributeForm.tokens]
      have htokens : ((some entry).map AttributeForm.tokens).getD [] = entry.tokens := rfl
      rw [htokens] at hbehind hlength
      obtain ⟨value, last, hvalue, hpasses⟩ := reads_attribute hplacedAfter hbehind
        (hform.last entry hlast) (by rw [hform.closing]; rfl) nodes
      rw [(hread.trans hvalue).iterate_eq (hend ⟨_, _, _, last⟩ hpasses.faces) (by omega)]
      refine ⟨?_, hpasses.faces, hpasses.reported.trans hreported⟩
      exact List.rel_append hshown (.cons ⟨value, rfl, hpasses.stretches⟩ .nil)

end ResourceAttributes

/-! ## Resources -/

namespace ParseState

variable {source : List Char} {state : ParseState} {form : ResourceForm} {rest : List Token}

theorem resourceTitle_word {token : Token} (h : (TitleForm.word token).WellFormed)
    (scan : Scan) (type : List Char) :
    ∃ node, state.resourceTitle source scan type token = (some node, state) ∧
      (TitleForm.word token).Shown source type node := by
  have hkinds : token.kind = .string ∨ token.kind = .identifier ∨ token.kind = .kwDefault ∨
      token.kind = .variable := by simpa [TitleForm.WellFormed] using h
  unfold resourceTitle TitleForm.Shown
  rcases hkinds with hkind | hkind | hkind | hkind
  · by_cases htype : type = classResourceType
    · exact ⟨quotedClassRef source token, by simp [hkind, htype], by simp [hkind, htype]⟩
    · exact ⟨Node.string token.offset (token.text source), by simp [hkind, htype],
        by simp [hkind, htype]⟩
  · exact ⟨Node.string token.offset (token.text source), by simp [hkind], by simp [hkind]⟩
  · exact ⟨Node.string token.offset (token.text source), by simp [hkind], by simp [hkind]⟩
  · exact ⟨Node.plainVariable token.offset (token.text source), by simp [hkind], by simp [hkind]⟩

theorem reads_title {title : TitleForm} (hplaced : state.cursor.Placed source)
    (hfaces : state.Faces (title.tokens ++ rest)) (hform : title.WellFormed) (type : List Char) :
    ∃ token node titled, state.token? = some token ∧
      state.resourceTitle source (Manifest.scan source) type token = (some node, titled) ∧
      title.Shown source type node ∧ titled.next.Faces rest ∧
      titled.reported = state.reported ∧ titled.cursor.Placed source := by
  cases title with
  | word token =>
      obtain ⟨node, htitle, hshown⟩ := resourceTitle_word hform (Manifest.scan source) type
      exact ⟨token, node, state, hfaces.token?, htitle, hshown, hfaces.next, rfl, hplaced⟩
  | list opening titles closing =>
      obtain ⟨hopening, htitles, hclosing⟩ := hform
      have hfirst : state.Faces (opening :: (titles ++ closing :: rest)) := by
        simpa [TitleForm.tokens] using hfaces
      have hrun : PassableRun indexStops [] titles := htitles.passable_closing .square
      have hoffset : opening.offset ≤ state.moveNext.offset source := by
        have hstart : state.offset source = opening.offset := hfirst.offset
        rw [← hstart]
        exact state.leadsTo_moveNext.offset_le hplaced
      have hpasses := Scan.passes_run (placed_moveNext hplaced) hfirst.moveNext hrun (by decide)
        (show indexStops.contains closing.kind = true by rw [hclosing]; rfl) hoffset
      refine ⟨opening, (Manifest.scan source opening.offset indexStops state.moveNext).1,
        (Manifest.scan source opening.offset indexStops state.moveNext).2, hfirst.token?, ?_,
        hpasses.stretches, hpasses.faces.next, hpasses.reported, hpasses.placed⟩
      unfold resourceTitle
      rw [hopening]

/-- Behind its title, a resource is read as it is written. -/
theorem reads_body (hplaced : state.cursor.Placed source)
    (hfaces : state.next.Faces (form.attributes.flatMap ResourceForm.entryTokens ++
      (form.lastTokens ++ form.closing :: rest)))
    (hform : form.WellFormed source) (title? : Option Node)
    (hend : ∀ title ∈ title?, title.endOffset ≤ state.offset source)
    (htitle : Option.Rel (fun (title : TitleForm × Token) node =>
      title.1.Shown source (form.type.text source) node) form.title? title?) :
    ∃ node last,
      state.resourceBody source (Manifest.scan source) (form.type.text source) form.type.offset
          title? = (node, last) ∧
      form.Shown source node ∧ last.Faces (form.closing :: rest) ∧
      last.reported = state.reported := by
  obtain ⟨hshown, hclosing, hreported⟩ :=
    ResourceAttributes.reads_readAll hplaced hfaces hform
  obtain ⟨hleads, hlaid⟩ := ResourceAttributes.ordered_readAll (Scan.lays_scan source _)
    (Nat.le_refl _) hplaced
  unfold resourceBody
  dsimp only
  generalize ResourceAttributes.readAll source (Manifest.scan source) state = read at *
  rw [hclosing.token?]
  refine ⟨_, read.state, rfl, ⟨title?, read.attributes, rfl, ?_, htitle, hshown⟩, hclosing,
    hreported⟩
  rw [currentStop_of_token? hclosing.token?] at hlaid
  have hnext : state.offset source ≤ state.next.offset source := offset_le_next hplaced
  have hlater : state.next.offset source ≤ form.closing.stop := by
    have hoffset : read.state.offset source = form.closing.offset := hclosing.offset
    have hle := hleads.offset_le (placed_next hplaced)
    have hrange : form.closing.offset ≤ form.closing.stop := form.closing.range.start_le_stop
    exact Nat.le_trans hle (Nat.le_trans (Nat.le_of_eq hoffset) hrange)
  refine Node.endOffset_eq_of_ownEnd rfl ?_
  rw [Node.endOffset_eq, Node.endOffsetOf_le_iff]
  refine ⟨Int.le_refl _, fun child hchild => ?_⟩
  rcases List.mem_append.1 hchild with hchild | hchild
  · have hbefore := hend child (Option.mem_toList.1 hchild)
    omega
  · exact hlaid.2.2 child hchild

/-- A type that begins with a capital has its attributes right behind the brace. -/
theorem reads_untitled (hplaced : state.cursor.Placed source)
    (hfaces : state.Faces (form.tokens.tail ++ rest)) (hform : form.WellFormed source)
    (htitle : form.title? = none) :
    ∃ node last,
      state.resource source (Manifest.scan source) (form.type.text source) form.type.offset =
        ([node], last) ∧
      form.Shown source node ∧ last.Faces (form.closing :: rest) ∧
      last.reported = state.reported := by
  have hopening : state.Faces (form.opening :: (form.attributes.flatMap ResourceForm.entryTokens ++
      (form.lastTokens ++ form.closing :: rest))) := by
    simpa [ResourceForm.tokens, ResourceForm.titleTokens, htitle] using hfaces
  obtain ⟨node, last, hread, hshown, hlast, hreported⟩ :=
    reads_body hplaced hopening.next hform none (by intro title h; cases h)
      (by rw [htitle]; exact .none)
  refine ⟨node, last, ?_, hshown, hlast, hreported⟩
  unfold resource
  rw [if_pos (hform.untitled htitle).2, hread]

/-- Any other type has its title and a colon there. -/
theorem reads_titled {title : TitleForm} {colon : Token} (hplaced : state.cursor.Placed source)
    (hfaces : state.Faces (form.tokens.tail ++ rest)) (hform : form.WellFormed source)
    (htitle : form.title? = some (title, colon)) :
    ∃ node last,
      state.resource source (Manifest.scan source) (form.type.text source) form.type.offset =
        ([node], last) ∧
      form.Shown source node ∧ last.Faces (form.closing :: rest) ∧
      last.reported = state.reported := by
  obtain ⟨htype, htitled, hcolon⟩ := hform.titled title colon htitle
  have hcapital : startsWithCapital (form.type.text source) = false := by
    rcases htype with ⟨-, hcapital⟩ | ⟨-, hclass⟩
    · exact hcapital
    · rw [hclass]
      decide
  have hopening : state.Faces (form.opening :: (title.tokens ++ colon ::
      (form.attributes.flatMap ResourceForm.entryTokens ++
        (form.lastTokens ++ form.closing :: rest)))) := by
    simpa [ResourceForm.tokens, ResourceForm.titleTokens, htitle] using hfaces
  have hplacedNext := placed_next hplaced
  obtain ⟨token, shown, titled, htoken, hreadTitle, hshownTitle, hbehind, hreportedTitle,
    hplacedTitled⟩ := reads_title hplacedNext hopening.next htitled (form.type.text source)
  obtain ⟨-, hlaid⟩ := reads_resourceTitle (form.type.text source)
    (Scan.lays_scan source (state.next.remaining + 1)) hplacedNext htoken
    (Nat.lt_succ_of_le state.next.remaining_moveNext_le)
  rw [hreadTitle] at hlaid
  have hend : shown.endOffset ≤ titled.next.offset source :=
    hlaid.2.2 shown (List.mem_singleton_self shown)
  obtain ⟨node, last, hread, hshown, hlast, hreported⟩ :=
    reads_body (placed_next hplacedTitled) hbehind.next hform (some shown)
      (by rintro _ ⟨⟩; exact hend) (by rw [htitle]; exact .some hshownTitle)
  refine ⟨node, last, ?_, hshown, hlast, hreported.trans hreportedTitle⟩
  have hat : titled.next.isAt .colon = true := by
    rw [hbehind.isAt, hcolon]
    rfl
  unfold resource
  rw [if_neg (by rw [hcapital]; decide)]
  dsimp only
  rw [htoken]
  dsimp only
  rw [hreadTitle]
  dsimp only
  rw [if_pos hat, hread]

/-- From its opening brace on, a resource is read as it is written. -/
theorem reads_form (hplaced : state.cursor.Placed source)
    (hfaces : state.Faces (form.tokens.tail ++ rest)) (hform : form.WellFormed source) :
    ∃ node last,
      state.resource source (Manifest.scan source) (form.type.text source) form.type.offset =
        ([node], last) ∧
      form.Shown source node ∧ last.Faces (form.closing :: rest) ∧
      last.reported = state.reported := by
  cases htitle : form.title? with
  | none => exact reads_untitled hplaced hfaces hform htitle
  | some entry => exact reads_titled hplaced hfaces hform htitle

end ParseState

namespace ResourceForm

theorem WellFormed.kind_type {source : List Char} {form : ResourceForm}
    (h : form.WellFormed source) : form.type.kind = .identifier ∨ form.type.kind = .kwClass := by
  cases htitle : form.title? with
  | none => exact .inl (h.untitled htitle).1
  | some entry =>
      obtain ⟨htype, -⟩ := h.titled entry.1 entry.2 htitle
      exact htype.imp And.left And.left

end ResourceForm

namespace Scanning

variable {source : List Char} {scanning : Scanning} {form : ResourceForm} {rest : List Token}

/-- The next step of a scan of a body takes a resource out as one node, reports nothing, and goes
on behind its closing brace. -/
def TakesOut (source : List Char) (form : ResourceForm) (rest : List Token)
    (scanning : Scanning) : Prop :=
  ∃ resource after,
    scanning.step source (Manifest.scan source) bodyStops =
      .again { scanning with
        children := scanning.children ++ [resource]
        state := after } ∧
    form.Shown source resource ∧ after.Faces rest ∧
    after.reported = scanning.state.reported

/-- The next step keeps the type of a resource as raw text, and goes on behind the type. -/
def KeepsType (source : List Char) (form : ResourceForm) (scanning : Scanning) : Prop :=
  scanning.step source (Manifest.scan source) bodyStops =
    .again { scanning with
      raw := scanning.raw ++ [form.type.text source]
      state := scanning.state.next }

theorem KeepsType.not_takesOut (h : scanning.KeepsType source form) :
    ¬ scanning.TakesOut source form rest := by
  intro htakes
  obtain ⟨resource, after, hstep, -⟩ := htakes
  have hsame := Progress.again.inj (h.symm.trans hstep)
  have hchildren : scanning.children = scanning.children ++ [resource] :=
    congrArg Scanning.children hsame
  simp at hchildren

theorem nameAt_of_keepsNames {scan : Scan} {stops : List TokenKind} {token : Token}
    (h : scanning.nesting.keepsNames = true) :
    scanning.nameAt source scan stops token =
      (scanning.keep (token.text source)).advance scanning.state := by
  unfold nameAt
  rw [if_pos h]

theorem nameAt_of_leftBrace {scan : Scan} {stops : List TokenKind} {token opening : Token}
    {nodes : List Node} {last : ParseState}
    (hopening : scanning.state.next.token? = some opening) (hbrace : opening.kind = .leftBrace)
    (hstops : scanning.endsAt stops .leftBrace = false)
    (hnames : scanning.nesting.keepsNames = false)
    (hread : scanning.state.next.resource source scan (token.text source) token.offset =
      (nodes, last)) :
    scanning.nameAt source scan stops token = (scanning.add nodes).advance last := by
  unfold nameAt
  rw [hnames, if_neg (by decide)]
  dsimp only
  rw [hopening]
  dsimp only
  rw [if_pos ⟨hbrace, hstops⟩, hread]

theorem endsAt_bodyStops {kind : TokenKind} (h : kind ≠ .rightBrace) :
    scanning.endsAt bodyStops kind = false := by
  simp [endsAt, bodyStops, h]

/-- On the type of a resource a scan of a body does what it does on a name. -/
theorem step_of_form (hfaces : scanning.state.Faces (form.tokens ++ rest))
    (hform : form.WellFormed source) :
    scanning.step source (Manifest.scan source) bodyStops =
      .again (scanning.nameAt source (Manifest.scan source) bodyStops form.type) := by
  have htype : scanning.state.Faces (form.type :: form.opening :: (form.tokens.tail.tail ++ rest)) :=
    hfaces
  -- Before a brace the type is no call and no index.
  have happlied : scanning.applied? source (Manifest.scan source) form.type = none :=
    applied?_eq_none htype (by rw [hform.opening]; decide)
      (fun _ => by rw [hform.opening]; decide) _
  have htoken : scanning.tokenAt source (Manifest.scan source) bodyStops form.type =
      scanning.nameAt source (Manifest.scan source) bodyStops form.type := by
    rw [← significantAt_name hform.kind_type happlied]
    unfold tokenAt
    rw [if_neg (by rw [htype.significant]; decide)]
    rcases hform.kind_type with hkind | hkind <;> rw [hkind] <;> rfl
  have hends : scanning.endsAt bodyStops form.type.kind = false :=
    endsAt_bodyStops (by rcases hform.kind_type with hkind | hkind <;> rw [hkind] <;> decide)
  unfold step
  rw [htype.token?]
  dsimp only
  rw [hends, htoken]
  rfl

/-- Where names are kept, the type of a resource is kept. -/
theorem keepsType_of_form (hfaces : scanning.state.Faces (form.tokens ++ rest))
    (hform : form.WellFormed source) (hnames : scanning.nesting.keepsNames = true) :
    scanning.KeepsType source form := by
  unfold KeepsType
  rw [step_of_form hfaces hform, nameAt_of_keepsNames hnames]
  rfl

/-- Where they are not, the resource is read. -/
theorem takesOut_of_form (hplaced : scanning.state.cursor.Placed source)
    (hfaces : scanning.state.Faces (form.tokens ++ rest)) (hform : form.WellFormed source)
    (hnames : scanning.nesting.keepsNames = false) : scanning.TakesOut source form rest := by
  have htype : scanning.state.Faces (form.type :: (form.tokens.tail ++ rest)) := hfaces
  have hopening : scanning.state.next.Faces (form.tokens.tail ++ rest) := htype.next
  obtain ⟨node, last, hread, hshown, hlast, hreported⟩ :=
    ParseState.reads_form (ParseState.placed_next hplaced) hopening hform
  refine ⟨node, last.next, ?_, hshown, hlast.next, hreported⟩
  rw [step_of_form hfaces hform, nameAt_of_leftBrace hopening.head hform.opening
    (endsAt_bodyStops (by decide)) hnames hread]
  rfl

/-- A scan of a body comes to a resource outside of the brackets and parentheses that it has met,
with blanks anywhere in the resource.  If it has met no stray one, it takes the resource out as
one node: from the type to the closing brace, with the title and just the attributes that are
written, each with its value up to the comma or the brace behind.  It reports nothing, and goes
on behind the closing brace.  A type that begins with a capital is written without a title.

Behind a square or round bracket that closed nothing the resource is lost: its type alone is kept
as raw text, and the scan goes on with the opening brace. -/
theorem step_resource (multiline : Bool) (source : List Char) (form : ResourceForm)
    (rest : List Token) (state : ParseState) (met : List Token) (scanning : Scanning)
    (htokens : state.cursor.tokens = (TokenStream.lex multiline source).tokens)
    (hindex : 0 ≤ state.cursor.index)
    (hreaches : Reaches source bodyStops (.begin state) met scanning)
    (hsquare : Bracket.square.depth met = 0) (hround : Bracket.round.depth met = 0)
    (hfaces : scanning.state.Faces (form.tokens ++ rest)) (hform : form.WellFormed source) :
    (scanning.TakesOut source form rest ↔
      Bracket.square.strays met = 0 ∧ Bracket.round.strays met = 0) ∧
    (¬ (Bracket.square.strays met = 0 ∧ Bracket.round.strays met = 0) →
      scanning.KeepsType source form ∧
      scanning.state.next.Faces (form.tokens.tail ++ rest)) := by
  have hplaced : state.cursor.Placed source :=
    Cursor.placed_of_lex (Cursor.begun_of_index hindex) htokens
  obtain ⟨hlaying, -⟩ := hreaches.laying (laying_begin hplaced)
  have hnesting : scanning.nesting = Nesting.flat.behind met := hreaches.nesting
  have hcounted := Nesting.keepsNames_outside hsquare hround
  rw [← hnesting] at hcounted
  have hopening : scanning.state.next.Faces (form.tokens.tail ++ rest) :=
    ParseState.Faces.next hfaces
  by_cases hstrays : Bracket.square.strays met = 0 ∧ Bracket.round.strays met = 0
  · have hnames : scanning.nesting.keepsNames = false := by
      rw [← Bool.not_eq_true, hcounted]
      exact not_not_intro hstrays
    have htakes := takesOut_of_form (hlaying.leads.placed hlaying.placed) hfaces hform hnames
    exact ⟨⟨fun _ => hstrays, fun _ => htakes⟩, fun h => absurd hstrays h⟩
  · have hkeeps := keepsType_of_form hfaces hform (hcounted.2 hstrays)
    exact ⟨⟨fun h => absurd h hkeeps.not_takesOut, fun h => absurd h hstrays⟩,
      fun _ => ⟨hkeeps, hopening⟩⟩

/-- A number in parentheses, then a resource with a list for a title, a comment, and a comma
inside of a value. -/
def writtenResource : List Char :=
  "(1) file \x7b [$a, 'b']: # c\n  mode => f(1, 'x'), * => $h \x7d $z".toList

def writtenForm : ResourceForm where
  type := .loose .identifier 4 4
  opening := .spelled .leftBrace 9
  title? := some (.list (.spelled .leftBracket 11)
    [.loose .variable 12 2, .spelled .comma 14, .loose .string 16 3] (.spelled .rightBracket 19),
    .spelled .colon 20)
  attributes :=
    [(⟨.loose .identifier 28 4, .spelled .paramAssign 33,
      [.loose .identifier 36 1, .spelled .leftParen 37, .loose .int 38 1, .spelled .comma 39,
        .loose .string 41 3, .spelled .rightParen 44]⟩, .spelled .comma 45)]
  last? := some ⟨.spelled .star 47, .spelled .paramAssign 49, [.loose .variable 52 2]⟩
  closing := .spelled .rightBrace 55

/-- The resource behind the parentheses is taken out, and the variable behind it is ahead. -/
theorem step_resource_writtenForm :
    (Scan.onFirst writtenResource).cursor.tokens =
        (TokenStream.lex false writtenResource).tokens ∧
      0 ≤ (Scan.onFirst writtenResource).cursor.index ∧
      ∃ met scanning,
        Reaches writtenResource bodyStops (.begin (Scan.onFirst writtenResource)) met scanning ∧
        met.map Token.kind = [.leftParen, .int, .rightParen] ∧
        Bracket.square.depth met = 0 ∧ Bracket.round.depth met = 0 ∧
        scanning.state.Faces (writtenForm.tokens ++ [.loose .variable 57 2]) ∧
        writtenForm.WellFormed writtenResource ∧
        scanning.TakesOut writtenResource writtenForm [.loose .variable 57 2] := by
  have htokens : (Scan.onFirst writtenResource).cursor.tokens =
      (TokenStream.lex false writtenResource).tokens :=
    (ParseState.leadsTo_moveNext _).tokens_eq
  have hindex : 0 ≤ (Scan.onFirst writtenResource).cursor.index := by decide +kernel
  have hform : writtenForm.WellFormed writtenResource := by
    refine ⟨by decide, by rintro ⟨⟩, ?_, ?_, ?_, by decide⟩
    · intro title colon htitled
      obtain ⟨rfl, rfl⟩ := Prod.mk.inj (Option.some.inj htitled)
      exact ⟨.inl ⟨by decide, by decide +kernel⟩,
        ⟨by decide, ⟨by decide, by decide, by decide⟩, by decide⟩, by decide⟩
    · exact List.forall_mem_singleton.2
        ⟨⟨by decide, by decide, ⟨⟨by decide, by decide, by decide⟩, by decide⟩⟩, by decide⟩
    · intro last hlast
      obtain rfl := Option.some.inj hlast
      exact ⟨by decide, by decide, ⟨⟨by decide, by decide, by decide⟩, by decide⟩⟩
  have hreaches := reaches_follow writtenResource bodyStops 3
    (.begin (Scan.onFirst writtenResource))
  have hfaces : (follow writtenResource bodyStops 3
      (.begin (Scan.onFirst writtenResource))).2.state.Faces
        (writtenForm.tokens ++ [.loose .variable 57 2]) :=
    ⟨⟨Cursor.begun_of_index (by decide +kernel), by decide +kernel⟩, by decide +kernel⟩
  have hsquare : Bracket.square.depth (follow writtenResource bodyStops 3
      (.begin (Scan.onFirst writtenResource))).1 = 0 := by decide +kernel
  have hround : Bracket.round.depth (follow writtenResource bodyStops 3
      (.begin (Scan.onFirst writtenResource))).1 = 0 := by decide +kernel
  obtain ⟨htakes, -⟩ := step_resource false writtenResource writtenForm [.loose .variable 57 2]
    (Scan.onFirst writtenResource) _ _ htokens hindex hreaches hsquare hround hfaces hform
  exact ⟨htokens, hindex, _, _, hreaches, by decide +kernel, hsquare, hround, hfaces, hform,
    htakes.2 ⟨by decide +kernel, by decide +kernel⟩⟩

def strayForm : ResourceForm where
  type := .loose .identifier 2 4
  opening := .spelled .leftBrace 7
  title? := some (.word (.loose .string 9 3), .spelled .colon 12)
  attributes := []
  last? := none
  closing := .spelled .rightBrace 14

/-- Behind a parenthesis that closes nothing a resource is lost, though no bracket is open and
the resource is written as it should be: of all of it the scan has its title. -/
theorem step_resource_strayParen :
    ∃ met scanning,
      Reaches Scan.strayParen bodyStops (.begin (Scan.onFirst Scan.strayParen)) met scanning ∧
      Bracket.square.depth met = 0 ∧ Bracket.round.depth met = 0 ∧
      scanning.state.Faces (strayForm.tokens ++ [.spelled .rightBrace 16]) ∧
      strayForm.WellFormed Scan.strayParen ∧
      ¬ scanning.TakesOut Scan.strayParen strayForm [.spelled .rightBrace 16] ∧
      (Manifest.scan Scan.strayParen 0 bodyStops
        (Scan.onFirst Scan.strayParen)).1.children.map Node.kind = [.string] := by
  have hform : strayForm.WellFormed Scan.strayParen := by
    refine ⟨by decide, by rintro ⟨⟩, ?_, ?_, by rintro _ ⟨⟩, by decide⟩
    · intro title colon htitled
      obtain ⟨rfl, rfl⟩ := Prod.mk.inj (Option.some.inj htitled)
      exact ⟨.inl ⟨by decide, by decide +kernel⟩, List.mem_cons_self, by decide⟩
    · intro entry hentry
      cases hentry
  have hfaces : (follow Scan.strayParen bodyStops 1
      (.begin (Scan.onFirst Scan.strayParen))).2.state.Faces
        (strayForm.tokens ++ [.spelled .rightBrace 16]) :=
    ⟨⟨Cursor.begun_of_index (by decide +kernel), by decide +kernel⟩, by decide +kernel⟩
  have hkeeps := keepsType_of_form hfaces hform (by decide +kernel)
  exact ⟨_, _, reaches_follow _ _ 1 _, by decide +kernel, by decide +kernel, hfaces, hform,
    hkeeps.not_takesOut, by decide +kernel⟩

end Scanning

end Manifest
