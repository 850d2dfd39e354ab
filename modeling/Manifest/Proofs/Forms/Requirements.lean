import Manifest.Parse.Construct
import Manifest.Proofs.Forms.Indices
import Manifest.Proofs.Reports.Timely

/-!
# Requirements that are written out

A requirement is its word with names behind it, bare or in brackets.  A name is a word, a string
or a class reference.  The list goes on where a comma stands behind a name; a reference with a
malformed index is reported, and the list goes on behind its index as behind any other name.
-/

namespace Manifest

/-! ## Forms -/

/-- A name of a requirement as it is written: a word, a string, or the type of class references
with an index. -/
inductive NameForm where
  | word (token : Token)
  | quoted (token : Token)
  | indexed (form : IndexForm)

structure RequirementForm where
  word : Token
  /-- The brackets around the names. -/
  brackets? : Option (Token × Token)
  /-- The names that have a comma behind them. -/
  names : List (NameForm × Token)
  /-- A name at the end of the list. -/
  last? : Option NameForm

namespace NameForm

def tokens : NameForm → List Token
  | .word token | .quoted token => [token]
  | .indexed form => form.tokens

def WellFormed (source : List Char) : NameForm → Prop
  | .word token => token.kind = .identifier ∧ token.text source ≠ classTypeName
  | .quoted token => token.kind = .string
  | .indexed form => form.WellFormed source

def misfit? : NameForm → Option Token
  | .indexed form => form.misfit?
  | _ => none

/-- The node of a name: a reference to the class, or the index as a stretch if it names none. -/
def Shown (source : List Char) (form : NameForm) (node : Node) : Prop :=
  match form with
  | .word token => node = Node.classRef token.offset token.offset (token.text source)
  | .quoted token => token.NamesClass source node
  | .indexed form =>
      match form.string? with
      | some token => token.NamesClass source node
      | none => form.Spans node

theorem exists_head {source : List Char} {form : NameForm} (h : form.WellFormed source) :
    ∃ first others, form.tokens = first :: others ∧
      requirementNameKinds.contains first.kind = true := by
  cases form with
  | word token => exact ⟨token, [], rfl, by rw [h.1]; rfl⟩
  | quoted token => exact ⟨token, [], rfl, by rw [show token.kind = .string from h]; rfl⟩
  | indexed form => exact ⟨form.type, _, rfl, by rw [h.type]; rfl⟩

end NameForm

namespace RequirementForm

def entryTokens (entry : NameForm × Token) : List Token :=
  entry.1.tokens ++ [entry.2]

def lastTokens (form : RequirementForm) : List Token :=
  (form.last?.map NameForm.tokens).getD []

def listTokens (form : RequirementForm) : List Token :=
  form.names.flatMap entryTokens ++ form.lastTokens

def tokens (form : RequirementForm) : List Token :=
  form.word :: match form.brackets? with
    | some (opening, closing) => opening :: (form.listTokens ++ [closing])
    | none => form.listTokens

def allNames (form : RequirementForm) : List NameForm :=
  form.names.map Prod.fst ++ form.last?.toList

structure WellFormed (source : List Char) (form : RequirementForm) : Prop where
  word : form.word.kind ∈ requirementKinds
  brackets : ∀ opening closing, form.brackets? = some (opening, closing) →
    opening.kind = .leftBracket ∧ closing.kind = .rightBracket ∨
      opening.kind = .leftParen ∧ closing.kind = .rightParen
  /-- Without brackets the list ends with a name. -/
  bare : form.brackets? = none → form.last?.isSome = true
  names : ∀ entry ∈ form.names, entry.1.WellFormed source ∧ entry.2.kind = .comma
  last : ∀ name, form.last? = some name → name.WellFormed source

def call (source : List Char) (form : RequirementForm) (names : List Node) : Node :=
  ⟨form.word.offset, none, .functionCall (form.word.text source), names⟩

/-- Where the parse goes on: behind the closing bracket, if it is on that. -/
def behind (form : RequirementForm) (last : ParseState) : ParseState :=
  if form.brackets?.isSome then last.next else last

def misfits (names : List NameForm) : List Token :=
  names.flatMap fun name => name.misfit?.toList

theorem misfits_cons (name : NameForm) (names : List NameForm) :
    misfits (name :: names) = name.misfit?.toList ++ misfits names :=
  rfl

theorem misfits_append (names others : List NameForm) :
    misfits (names ++ others) = misfits names ++ misfits others :=
  List.flatMap_append

variable {source : List Char} {form : RequirementForm}

theorem exists_head (h : form.WellFormed source) (hlast : form.last?.isSome = true) :
    ∃ first others, form.listTokens = first :: others ∧
      requirementNameKinds.contains first.kind = true := by
  obtain ⟨last, hsome⟩ := Option.isSome_iff_exists.1 hlast
  have hlastTokens : form.lastTokens = last.tokens := by
    unfold lastTokens
    rw [hsome]
    rfl
  unfold listTokens
  rw [hlastTokens]
  cases hnames : form.names with
  | nil => exact NameForm.exists_head (h.last last hsome)
  | cons entry entries =>
      have hentry : entry ∈ form.names := by
        rw [hnames]
        exact List.mem_cons_self
      obtain ⟨first, others, htokens, hfirst⟩ := NameForm.exists_head (h.names entry hentry).1
      refine ⟨first, others ++ entry.2 :: (entries.flatMap entryTokens ++ last.tokens), ?_, hfirst⟩
      simp [entryTokens, htokens]

end RequirementForm

/-! ## Reports of names -/

namespace ParseState

variable {source : List Char} {state other : ParseState}

/-- Report the tokens that do not fit, one after the other. -/
def recordAll (misfits : List Token) (state : ParseState) : ParseState :=
  misfits.foldl (fun state misfit => state.record (.malformedAt misfit)) state

theorem recordAll_append (misfits others : List Token) (state : ParseState) :
    state.recordAll (misfits ++ others) = (state.recordAll misfits).recordAll others :=
  List.foldl_append

theorem reported_recordAll_congr (h : state.reported = other.reported) (misfits : List Token) :
    (state.recordAll misfits).reported = (other.recordAll misfits).reported := by
  induction misfits generalizing state other with
  | nil => exact h
  | cons misfit misfits ih => exact ih (reported_record_congr h _)

theorem reported_recordAll_next (misfits : List Token) (state : ParseState) :
    (state.next.recordAll misfits).reported = (state.recordAll misfits).reported := by
  have hsame : state.next.reported = state.reported := rfl
  exact reported_recordAll_congr hsame misfits

end ParseState

/-! ## Lists of names -/

namespace RequirementNames

open RequirementForm (entryTokens misfits)

variable {source : List Char} {state : ParseState} {rest : List Token} {comma : Token}
  {names : List Node}

theorem afterName_of_comma (h : state.next.Faces (comma :: rest)) (hcomma : comma.kind = .comma) :
    afterName names state = .again ⟨names, state.next.next⟩ := by
  unfold afterName
  dsimp only
  rw [h.isAt, hcomma]
  rfl

theorem afterName_of_end (h : state.next.Faces rest)
    (hrest : ∀ token, rest.head? = some token → token.kind ≠ .comma) :
    afterName names state = .done ⟨names, state.next⟩ := by
  have hcomma : state.next.isAt .comma = false := by
    cases rest with
    | nil =>
        unfold ParseState.isAt
        rw [h.kind?]
        rfl
    | cons token rest =>
        rw [h.isAt]
        exact beq_eq_false_iff_ne.2 (hrest token rfl)
  unfold afterName
  dsimp only
  rw [hcomma]
  rfl

/-- The list ends where no name stands. -/
theorem step_of_end {read : RequirementNames} (h : read.state.Faces rest)
    (hrest : ∀ token, rest.head? = some token →
      requirementNameKinds.contains token.kind = false) (scan : Scan) :
    step source scan read = .done read := by
  unfold step
  rw [h.head]
  cases hhead : rest.head? with
  | none => rfl
  | some token =>
      have hother : token.kind ≠ .identifier ∧ token.kind ≠ .string := by
        simpa [requirementNameKinds] using hrest token hhead
      dsimp only
      rw [if_neg hother.2, if_neg hother.1]

theorem ofClassType_index {form : IndexForm} (hplaced : state.cursor.Placed source)
    (hfaces : state.Faces (form.tokens ++ rest)) (hform : form.WellFormed source)
    (names : List Node) :
    ∃ node last,
      ofClassType source (Manifest.scan source) ⟨names, state⟩ = afterName (names ++ [node]) last ∧
      (NameForm.indexed form).Shown source node ∧ last.Faces (form.closing :: rest) ∧
      last.reported = (state.recordAll form.misfit?.toList).reported ∧
      last.cursor.Placed source := by
  unfold NameForm.Shown ofClassType
  dsimp only
  rcases form.misfit?_cases with ⟨token, hstring, hnone⟩ | ⟨misfit, hstring, hmisfit⟩
  · obtain ⟨last, hread, hlast, hreported⟩ :=
      ParseState.classReference_string hfaces hform hstring true
    have hplacedLast := (ParseState.reads_classReference hplaced true).placed_after
    rw [hread] at hplacedLast
    refine ⟨ParseState.quotedClassRef source token, last, by rw [hread], ?_, hlast, ?_,
      hplacedLast⟩
    · rw [hstring]
      exact Token.namesClass_quotedClassRef source token
    · rw [hnone]
      exact hreported
  · obtain ⟨failed, hread, hfailed⟩ :=
      ParseState.classReference_misfit hfaces hform hmisfit true
    have htype : state.Faces (form.type :: form.opening ::
        (form.index ++ form.closing :: rest)) := by
      simpa [IndexForm.tokens] using hfaces
    -- the parse goes back to the bracket, and keeps what it has reported
    have hbracket : (ParseState.next { failed with cursor := state.cursor }).Faces
        (form.opening :: (form.index ++ form.closing :: rest)) := htype.next.congr rfl
    have hplacedBracket : (ParseState.next { failed with cursor := state.cursor }).cursor.Placed
        source := ParseState.placed_next hplaced
    obtain ⟨index, last, hindex, hspans, hlast, hreported, hplacedLast⟩ :=
      Scan.passes_index hplacedBracket hbracket hform
    have hat : (ParseState.next { failed with cursor := state.cursor }).isAt .leftBracket =
        true := by
      rw [hbracket.isAt, hform.opening]
      rfl
    refine ⟨index, last, ?_, ?_, hlast, ?_, hplacedLast⟩
    · rw [hread]
      dsimp only
      rw [if_pos hat, hindex]
    · rw [hstring]
      exact hspans
    · rw [hmisfit]
      exact hreported.trans hfailed

theorem step_name {form : NameForm} (hplaced : state.cursor.Placed source)
    (hfaces : state.Faces (form.tokens ++ rest)) (hform : form.WellFormed source)
    (names : List Node) :
    ∃ node last,
      step source (Manifest.scan source) ⟨names, state⟩ = afterName (names ++ [node]) last ∧
      form.Shown source node ∧ last.next.Faces rest ∧
      last.reported = (state.recordAll form.misfit?.toList).reported ∧
      last.cursor.Placed source := by
  unfold step
  dsimp only
  cases form with
  | word token =>
      obtain ⟨hkind, hname⟩ := hform
      have htoken : state.Faces (token :: rest) := hfaces
      refine ⟨Node.classRef token.offset token.offset (token.text source), state, ?_, rfl,
        htoken.next, rfl, hplaced⟩
      rw [htoken.token?]
      simp [hkind, hname]
  | quoted token =>
      have hkind : token.kind = .string := hform
      have htoken : state.Faces (token :: rest) := hfaces
      refine ⟨ParseState.quotedClassRef source token, state, ?_,
        Token.namesClass_quotedClassRef source token, htoken.next, rfl, hplaced⟩
      rw [htoken.token?]
      exact if_pos hkind
  | indexed form =>
      have hindexed : form.WellFormed source := hform
      have htype : state.Faces (form.type :: (form.tokens.tail ++ rest)) := hfaces
      obtain ⟨node, last, hread, hshown, hlast, hreported, hplacedLast⟩ :=
        ofClassType_index hplaced hfaces hindexed names
      refine ⟨node, last, ?_, hshown, hlast.next, hreported, hplacedLast⟩
      rw [htype.token?]
      simp [hindexed.type, hindexed.text, hread]

/-- Names with commas behind them are read one after the other. -/
theorem goesOn_entries {entries : List (NameForm × Token)} (hplaced : state.cursor.Placed source)
    (hfaces : state.Faces (entries.flatMap entryTokens ++ rest))
    (hforms : ∀ entry ∈ entries, entry.1.WellFormed source ∧ entry.2.kind = .comma)
    (names : List Node) :
    ∃ nodes after,
      GoesOn (step source (Manifest.scan source)) entries.length ⟨names, state⟩
        ⟨names ++ nodes, after⟩ ∧
      List.Forall₂ (NameForm.Shown source) (entries.map Prod.fst) nodes ∧ after.Faces rest ∧
      after.reported = (state.recordAll (misfits (entries.map Prod.fst))).reported ∧
      after.cursor.Placed source := by
  induction entries generalizing state names with
  | nil =>
      refine ⟨[], state, ?_, .nil, hfaces, rfl, hplaced⟩
      rw [List.append_nil]
      exact .refl _ _
  | cons entry entries ih =>
      obtain ⟨⟨hform, hcomma⟩, hothers⟩ := List.forall_mem_cons.1 hforms
      have hfirst : state.Faces (entry.1.tokens ++ entry.2 ::
          (entries.flatMap entryTokens ++ rest)) := by
        rw [List.flatMap_cons, List.append_assoc] at hfaces
        simpa [entryTokens] using hfaces
      obtain ⟨node, last, hread, hshown, hlast, hreported, hplacedLast⟩ :=
        step_name hplaced hfirst hform names
      obtain ⟨nodes, after, hgoes, hshownAll, hafter, hreportedAll, hplacedAfter⟩ :=
        ih (ParseState.placed_next (ParseState.placed_next hplacedLast)) hlast.next hothers
          (names ++ [node])
      rw [List.append_assoc] at hgoes
      have hfirstStep := goesOn_again (hread.trans (afterName_of_comma hlast hcomma))
      refine ⟨node :: nodes, after, ?_, .cons hshown hshownAll, hafter, ?_, hplacedAfter⟩
      · rw [List.length_cons, Nat.add_comm]
        exact hfirstStep.trans hgoes
      · have hbehind : last.next.next.reported =
            (state.recordAll entry.1.misfit?.toList).reported := hreported
        rw [List.map_cons, RequirementForm.misfits_cons, ParseState.recordAll_append, hreportedAll]
        exact ParseState.reported_recordAll_congr hbehind _

theorem reads_list {form : RequirementForm} (hplaced : state.cursor.Placed source)
    (hfaces : state.Faces (form.listTokens ++ rest)) (hform : form.WellFormed source)
    (hcomma : ∀ token, rest.head? = some token → token.kind ≠ .comma)
    (hname : form.last? = none → ∀ token, rest.head? = some token →
      requirementNameKinds.contains token.kind = false) :
    ∃ nodes after,
      readAll source (Manifest.scan source) state = ⟨nodes, after⟩ ∧
      List.Forall₂ (NameForm.Shown source) form.allNames nodes ∧ after.Faces rest ∧
      after.reported = (state.recordAll (misfits form.allNames)).reported := by
  have hentries : state.Faces (form.names.flatMap entryTokens ++ (form.lastTokens ++ rest)) := by
    simpa [RequirementForm.listTokens] using hfaces
  obtain ⟨nodes, between, hgoes, hshown, hbetween, hreported, hplacedBetween⟩ :=
    goesOn_entries hplaced hentries hform.names []
  have hfuel : form.names.length < state.remaining + 1 := by
    have hlength := hentries.toSees.length_le
    rw [List.length_append] at hlength
    have hnames : 1 * form.names.length ≤ (form.names.flatMap entryTokens).length :=
      Token.length_flatMap_ge (by simp [entryTokens]) _
    omega
  unfold readAll RequirementForm.allNames
  cases hlast : form.last? with
  | none =>
      unfold RequirementForm.lastTokens at hbetween
      rw [hlast] at hbetween
      have hend : between.Faces rest := hbetween
      rw [Option.toList_none, List.append_nil]
      exact ⟨nodes, between, hgoes.iterate_eq (step_of_end hend (hname hlast) _) hfuel, hshown,
        hend, hreported⟩
  | some name =>
      unfold RequirementForm.lastTokens at hbetween
      rw [hlast] at hbetween
      have hword : between.Faces (name.tokens ++ rest) := hbetween
      obtain ⟨node, last, hread, hshownLast, hafter, hreportedLast, -⟩ :=
        step_name hplacedBetween hword (hform.last name hlast) nodes
      refine ⟨nodes ++ [node], last.next,
        hgoes.iterate_eq (hread.trans (afterName_of_end hafter hcomma)) hfuel,
        List.rel_append hshown (.cons hshownLast .nil), hafter, ?_⟩
      have hall : misfits (form.names.map Prod.fst ++ (some name).toList) =
          misfits (form.names.map Prod.fst) ++ name.misfit?.toList := by
        simp [misfits]
      rw [hall, ParseState.recordAll_append]
      exact hreportedLast.trans (ParseState.reported_recordAll_congr hreported _)

end RequirementNames

/-! ## Names that are spelled out -/

namespace Token

/-- A closed string with a name between quotes that are spelled as they are. -/
def Quotes (source : List Char) (token : Token) (name : List Char) : Prop :=
  token.flags.isPartial = false ∧
    ∃ quote, IsQuote quote ∧ token.text source = quote :: (name ++ [quote])

theorem NamesClass.eq_classRef {source : List Char} {token : Token} {node : Node}
    {name : List Char} (h : token.NamesClass source node) (hname : token.Quotes source name) :
    node = Node.classRef token.offset (token.offset + 1 : Nat) name := by
  obtain ⟨-, quote, hquote, htext⟩ := hname
  rw [h.reference, unquote_of_quotes hquote htext]

end Token

namespace NameForm

variable {source : List Char} {form : NameForm} {node : Node}

/-- A name that is a bare word, or spelled out between quotes. -/
def Literal (source : List Char) : NameForm → Prop
  | .word _ => True
  | .quoted token => ∃ name, token.Quotes source name
  | .indexed form => ∃ token name, form.string? = some token ∧ token.Quotes source name

/-- The reference to the class of a name that is spelled out. -/
def Refers (source : List Char) (form : NameForm) (node : Node) : Prop :=
  match form with
  | .word token => node = Node.classRef token.offset token.offset (token.text source)
  | .quoted token => ∃ name, token.Quotes source name ∧
      node = Node.classRef token.offset (token.offset + 1 : Nat) name
  | .indexed form => ∃ token name, form.string? = some token ∧ token.Quotes source name ∧
      node = Node.classRef token.offset (token.offset + 1 : Nat) name

theorem refers_of_shown (h : form.Literal source) (hshown : form.Shown source node) :
    form.Refers source node := by
  cases form with
  | word token => exact hshown
  | quoted token =>
      obtain ⟨name, hname⟩ := h
      exact ⟨name, hname, Token.NamesClass.eq_classRef hshown hname⟩
  | indexed form =>
      obtain ⟨token, name, hstring, hname⟩ := h
      unfold Shown at hshown
      dsimp only at hshown
      rw [hstring] at hshown
      exact ⟨token, name, hstring, hname, hshown.eq_classRef hname⟩

theorem misfit?_of_literal (h : form.Literal source) : form.misfit? = none := by
  cases form with
  | word => rfl
  | quoted => rfl
  | indexed form =>
      obtain ⟨token, name, hstring, -⟩ := h
      rcases form.misfit?_cases with ⟨-, -, hnone⟩ | ⟨-, hother, -⟩
      · exact hnone
      · rw [hstring] at hother
        cases hother

end NameForm

theorem RequirementForm.misfits_of_literal {source : List Char} {names : List NameForm}
    (h : ∀ name ∈ names, name.Literal source) : misfits names = [] := by
  unfold misfits
  rw [List.flatMap_eq_nil_iff]
  intro name hname
  rw [NameForm.misfit?_of_literal (h name hname)]
  rfl

/-! ## Requirements -/

namespace ParseState

open RequirementForm (misfits)

variable {source : List Char} {state : ParseState} {form : RequirementForm} {rest : List Token}

theorem reads_bare (hplaced : state.cursor.Placed source)
    (hfaces : state.next.Faces (form.listTokens ++ rest)) (hform : form.WellFormed source)
    (hbare : form.brackets? = none)
    (hrest : ∀ token, rest.head? = some token → token.kind ≠ .comma) :
    ∃ names last,
      state.requirementNames source (Manifest.scan source) = (names, false, last) ∧
      List.Forall₂ (NameForm.Shown source) form.allNames names ∧ last.Faces rest ∧
      last.reported = (state.recordAll (misfits form.allNames)).reported := by
  have hlast := hform.bare hbare
  obtain ⟨names, last, hread, hshown, hafter, hreported⟩ :=
    RequirementNames.reads_list (placed_next hplaced) hfaces hform hrest
      (fun hnone => by rw [hnone] at hlast; cases hlast)
  rw [reported_recordAll_next] at hreported
  refine ⟨names, last, ?_, hshown, hafter, hreported⟩
  obtain ⟨first, others, htokens, hfirst⟩ := RequirementForm.exists_head hform hlast
  have hkind : state.next.kind? = some first.kind := by
    rw [hfaces.kind?, htokens]
    rfl
  unfold requirementNames
  dsimp only
  rw [hkind]
  dsimp only
  rw [if_pos hfirst, hread]

theorem reads_enclosed {opening closing : Token} (hplaced : state.cursor.Placed source)
    (hfaces : state.next.Faces (opening :: (form.listTokens ++ closing :: rest)))
    (hform : form.WellFormed source) (hbrackets : form.brackets? = some (opening, closing)) :
    ∃ names last,
      state.requirementNames source (Manifest.scan source) = (names, true, last) ∧
      List.Forall₂ (NameForm.Shown source) form.allNames names ∧
      last.Faces (closing :: rest) ∧
      last.reported = (state.recordAll (misfits form.allNames)).reported := by
  have hkinds : requirementNameKinds.contains opening.kind = false ∧
      listClosing? opening.kind = some closing.kind ∧ closing.kind ≠ .comma ∧
      requirementNameKinds.contains closing.kind = false := by
    rcases hform.brackets opening closing hbrackets with ⟨hopening, hclosing⟩ |
      ⟨hopening, hclosing⟩ <;> rw [hopening, hclosing] <;> decide
  obtain ⟨hopening, hpair, hcomma, hname⟩ := hkinds
  obtain ⟨names, last, hread, hshown, hafter, hreported⟩ :=
    RequirementNames.reads_list (placed_next (placed_next hplaced)) hfaces.next hform
      (by rintro _ ⟨⟩; exact hcomma) (by rintro - _ ⟨⟩; exact hname)
  rw [reported_recordAll_next, reported_recordAll_next] at hreported
  refine ⟨names, last, ?_, hshown, hafter, hreported⟩
  have hkind : state.next.kind? = some opening.kind := hfaces.kind?
  have hclosed : last.isAt closing.kind = true := by
    rw [hafter.isAt]
    exact beq_self_eq_true _
  have hbracketed : state.next.bracketedNames source (Manifest.scan source) closing.kind =
      (names, last) := by
    unfold bracketedNames
    rw [hread]
    dsimp only
    rw [hclosed]
    rfl
  unfold requirementNames
  dsimp only
  rw [hkind]
  dsimp only
  rw [if_neg (by rw [hopening]; decide), hpair]
  dsimp only
  rw [hbracketed, hafter.token?]
  rfl

/-- A requirement is read as one call, and the parse is left on the closing bracket or behind the
last bare name. -/
theorem reads_requirement (hplaced : state.cursor.Placed source)
    (hfaces : state.Faces (form.tokens ++ rest)) (hform : form.WellFormed source)
    (hrest : form.brackets? = none → ∀ token, rest.head? = some token → token.kind ≠ .comma) :
    ∃ names last,
      state.requirementAt source (Manifest.scan source) form.word =
        (form.call source names, form.brackets?.isSome, last) ∧
      List.Forall₂ (NameForm.Shown source) form.allNames names ∧
      (form.behind last).Faces rest ∧
      last.reported = (state.recordAll (misfits form.allNames)).reported := by
  unfold requirementAt RequirementForm.call RequirementForm.behind
  unfold RequirementForm.tokens at hfaces
  cases hbrackets : form.brackets? with
  | none =>
      rw [hbrackets] at hfaces
      have hlist : state.next.Faces (form.listTokens ++ rest) := Faces.next hfaces
      obtain ⟨names, last, hread, hshown, hafter, hreported⟩ :=
        reads_bare hplaced hlist hform hbrackets (hrest hbrackets)
      exact ⟨names, last, by rw [hread]; rfl, hshown, hafter, hreported⟩
  | some brackets =>
      rw [hbrackets] at hfaces
      have hlist : state.next.Faces
          (brackets.1 :: (form.listTokens ++ brackets.2 :: rest)) := by
        simpa using Faces.next hfaces
      obtain ⟨names, last, hread, hshown, hafter, hreported⟩ :=
        reads_enclosed hplaced hlist hform hbrackets
      exact ⟨names, last, by rw [hread]; rfl, hshown, hafter.next, hreported⟩

end ParseState

namespace Scanning

open RequirementForm (misfits)

variable {source : List Char} {stops : List TokenKind} {scanning : Scanning}
  {form : RequirementForm} {rest : List Token}

theorem significantAt_requirement {word : Token} (h : word.kind ∈ requirementKinds) (scan : Scan) :
    scanning.significantAt source scan stops word = scanning.requirementAt source scan word := by
  have hkind : word.kind = .fnInclude ∨ word.kind = .fnRequire ∨ word.kind = .fnContain := by
    simpa [requirementKinds] using h
  unfold significantAt
  rcases hkind with hkind | hkind | hkind <;> rw [hkind]

/-- A scan that comes to a requirement, and does not end there, adds the call and goes on behind
the requirement. -/
theorem step_requirement (hplaced : scanning.state.cursor.Placed source)
    (hfaces : scanning.state.Faces (form.tokens ++ rest)) (hform : form.WellFormed source)
    (hends : scanning.endsAt stops form.word.kind = false)
    (hrest : form.brackets? = none → ∀ token, rest.head? = some token → token.kind ≠ .comma) :
    ∃ names last,
      scanning.state.requirement source (Manifest.scan source) =
        .ok (form.call source names, form.brackets?.isSome, last) ∧
      scanning.step source (Manifest.scan source) stops =
        .again { scanning with
          children := scanning.children ++ [form.call source names]
          state := form.behind last } ∧
      List.Forall₂ (NameForm.Shown source) form.allNames names ∧
      (form.behind last).Faces rest ∧
      (form.behind last).reported =
        (scanning.state.recordAll (misfits form.allNames)).reported := by
  obtain ⟨names, last, hread, hshown, hafter, hreported⟩ :=
    ParseState.reads_requirement hplaced hfaces hform hrest
  have hword : scanning.state.Faces (form.word :: (form.tokens.tail ++ rest)) := hfaces
  have hkinds := hform.word
  refine ⟨names, last, ?_, ?_, hshown, hafter, ?_⟩
  · unfold ParseState.requirement
    rw [hword.token?]
    dsimp only
    rw [if_pos (List.contains_iff_mem.2 hkinds), hread]
  · have htoken : scanning.tokenAt source (Manifest.scan source) stops form.word =
        { scanning with
          children := scanning.children ++ [form.call source names]
          state := form.behind last } := by
      have hcall : scanning.requirementAt source (Manifest.scan source) form.word =
          { scanning with
            children := scanning.children ++ [form.call source names]
            state := form.behind last } := by
        unfold requirementAt RequirementForm.behind
        rw [hread]
        cases form.brackets?.isSome <;> rfl
      have huntracked : ∀ kind ∈ requirementKinds, scanning.nesting.track kind = none := by
        intro kind
        cases kind <;> first | exact fun _ => rfl | exact fun h => absurd h (by decide)
      unfold tokenAt
      rw [if_neg (by rw [hword.significant]; decide), huntracked _ hkinds]
      exact (significantAt_requirement hkinds _).trans hcall
    unfold step
    rw [hword.token?]
    dsimp only
    rw [hends, htoken]
    rfl
  · unfold RequirementForm.behind
    split
    · exact hreported
    · exact hreported

/-- A scan that comes to a requirement with names between literal quotes, bare or in brackets and
with blanks anywhere, adds one call with one reference for each name, in their order: a bare word
names the class where it stands, and a quoted one from one behind its quote on.  Nothing is
reported.  The parse is left on the closing bracket, which the scan then passes, or on the token
behind the last bare name, so that the token behind the list is the next one in both cases. -/
theorem step_requirementForm (multiline : Bool) (source : List Char) (stops : List TokenKind)
    (form : RequirementForm) (rest : List Token) (scanning : Scanning)
    (htokens : scanning.state.cursor.tokens = (TokenStream.lex multiline source).tokens)
    (hfaces : scanning.state.Faces (form.tokens ++ rest)) (hform : form.WellFormed source)
    (hliteral : ∀ name ∈ form.allNames, name.Literal source)
    (hends : scanning.endsAt stops form.word.kind = false)
    (hrest : form.brackets? = none → ∀ token, rest.head? = some token → token.kind ≠ .comma) :
    ∃ names last,
      scanning.state.requirement source (Manifest.scan source) =
        .ok (form.call source names, form.brackets?.isSome, last) ∧
      scanning.step source (Manifest.scan source) stops =
        .again { scanning with
          children := scanning.children ++ [form.call source names]
          state := form.behind last } ∧
      List.Forall₂ (NameForm.Refers source) form.allNames names ∧
      (form.behind last).Faces rest ∧
      (form.behind last).reported = scanning.state.reported := by
  have hplaced : scanning.state.cursor.Placed source := Cursor.placed_of_lex hfaces.begun htokens
  obtain ⟨names, last, hread, hstep, hshown, hafter, hreported⟩ :=
    step_requirement hplaced hfaces hform hends hrest
  rw [RequirementForm.misfits_of_literal hliteral] at hreported
  have hrefers : List.Forall₂ (NameForm.Refers source) form.allNames names :=
    ((List.forall₂_and_left _ _).2 ⟨hliteral, hshown⟩).imp fun name node h =>
      NameForm.refers_of_shown h.1 h.2
  exact ⟨names, last, hread, hstep, hrefers, hafter, hreported⟩

def writtenRequirement : List Char :=
  "include Class['a'], b, # c\n  \"d\" $e".toList

def writtenNames : RequirementForm where
  word := .spelled .fnInclude 0
  brackets? := none
  names :=
    [(.indexed ⟨.loose .identifier 8 5, .spelled .leftBracket 13, [.loose .string 14 3],
        .spelled .rightBracket 17⟩, .spelled .comma 18),
      (.word (.loose .identifier 20 1), .spelled .comma 21)]
  last? := some (.quoted (.loose .string 29 3))

def onRequirement : Scanning :=
  .begin (ParseState.ofTokens (TokenStream.lex false writtenRequirement).tokens).moveNext

/-- The three names are read, and the variable behind them is ahead. -/
theorem step_requirementForm_writtenNames :
    onRequirement.state.cursor.tokens = (TokenStream.lex false writtenRequirement).tokens ∧
      onRequirement.state.Faces (writtenNames.tokens ++ [.loose .variable 33 2]) ∧
      writtenNames.WellFormed writtenRequirement ∧
      (∀ name ∈ writtenNames.allNames, name.Literal writtenRequirement) ∧
      onRequirement.endsAt bodyStops writtenNames.word.kind = false ∧
      (writtenNames.brackets? = none → ∀ token,
        [Token.loose .variable 33 2].head? = some token → token.kind ≠ .comma) ∧
      ∃ names last,
        onRequirement.state.requirement writtenRequirement (Manifest.scan writtenRequirement) =
          .ok (writtenNames.call writtenRequirement names, writtenNames.brackets?.isSome, last) ∧
        onRequirement.step writtenRequirement (Manifest.scan writtenRequirement) bodyStops =
          .again { onRequirement with
            children := onRequirement.children ++ [writtenNames.call writtenRequirement names]
            state := writtenNames.behind last } ∧
        List.Forall₂ (NameForm.Refers writtenRequirement) writtenNames.allNames names ∧
        (writtenNames.behind last).Faces [.loose .variable 33 2] ∧
        (writtenNames.behind last).reported = onRequirement.state.reported := by
  have htokens : onRequirement.state.cursor.tokens =
      (TokenStream.lex false writtenRequirement).tokens :=
    (ParseState.leadsTo_moveNext _).tokens_eq
  have hbegun : onRequirement.state.cursor.Begun :=
    Cursor.begun_enter [] (TokenStream.lex false writtenRequirement).tokens
  have hfaces : onRequirement.state.Faces (writtenNames.tokens ++ [.loose .variable 33 2]) :=
    ⟨⟨hbegun, by decide +kernel⟩, by decide +kernel⟩
  have hform : writtenNames.WellFormed writtenRequirement := by
    refine ⟨by decide, by rintro _ _ ⟨⟩, fun _ => rfl, ?_, ?_⟩
    · refine List.forall_mem_cons.2 ⟨⟨?_, by decide⟩,
        List.forall_mem_singleton.2 ⟨⟨by decide, by decide⟩, by decide⟩⟩
      exact ⟨by decide, by decide, by decide, ⟨by decide, by decide, by decide⟩, by decide⟩
    · rintro name hname
      cases hname
      exact (rfl : TokenKind.string = .string)
  have hliteral : ∀ name ∈ writtenNames.allNames, name.Literal writtenRequirement := by
    refine List.forall_mem_cons.2 ⟨?_, List.forall_mem_cons.2 ⟨trivial,
      List.forall_mem_singleton.2 ?_⟩⟩
    · exact ⟨.loose .string 14 3, ['a'], IndexForm.string?_of_index rfl rfl, by decide, '\'',
        .inl rfl, by decide⟩
    · exact ⟨['d'], by decide, '"', .inr rfl, by decide⟩
  have hrest : writtenNames.brackets? = none → ∀ token,
      [Token.loose .variable 33 2].head? = some token → token.kind ≠ .comma := by
    rintro - token ⟨⟩
    decide
  exact ⟨htokens, hfaces, hform, hliteral, rfl, hrest,
    step_requirementForm false writtenRequirement bodyStops writtenNames [.loose .variable 33 2]
      onRequirement htokens hfaces hform hliteral rfl hrest⟩

end Scanning

end Manifest
