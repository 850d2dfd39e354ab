import Manifest.Proofs.Forms.Requirements

/-!
# Indices that name no class

Where a scan comes to the type of class references, an index that is no single string makes it a
type as any other, and nothing is said of it.  In a requirement the first token of such an index
that does not fit is reported, once for each index: the reports come in the order of the text,
so none of them falls together with the one before.
-/

namespace Manifest

/-! ## Tokens that do not fit -/

theorem NameForm.misfit_sublist (form : NameForm) : form.misfit?.toList.Sublist form.tokens := by
  cases hmisfit : form.misfit? with
  | none => exact List.nil_sublist _
  | some token =>
      rw [Option.toList_some, List.singleton_sublist]
      cases form with
      | word => cases hmisfit
      | quoted => cases hmisfit
      | indexed form =>
          exact List.mem_cons_of_mem _ (List.mem_cons_of_mem _ (IndexForm.mem_of_misfit? hmisfit))

namespace RequirementForm

theorem misfits_entries_sublist (entries : List (NameForm × Token)) :
    (misfits (entries.map Prod.fst)).Sublist (entries.flatMap entryTokens) := by
  induction entries with
  | nil => exact List.Sublist.refl _
  | cons entry entries ih =>
      rw [List.map_cons, misfits_cons, List.flatMap_cons]
      exact ((NameForm.misfit_sublist entry.1).trans (List.sublist_append_left _ _)).append ih

theorem misfits_sublist (form : RequirementForm) :
    (misfits form.allNames).Sublist form.tokens.tail := by
  have hlast : (misfits form.last?.toList).Sublist form.lastTokens := by
    unfold lastTokens
    cases form.last? with
    | none => exact List.Sublist.refl _
    | some name =>
        rw [Option.toList_some, misfits, List.flatMap_singleton]
        exact NameForm.misfit_sublist name
  have hlist : (misfits form.allNames).Sublist form.listTokens := by
    unfold allNames listTokens
    rw [misfits_append]
    exact (misfits_entries_sublist form.names).append hlast
  unfold tokens
  rw [List.tail_cons]
  split
  · exact (hlist.trans (List.sublist_append_left _ _)).cons _
  · exact hlist

end RequirementForm

namespace ParseState

open RequirementForm (misfits)

variable {source : List Char} {state : ParseState} {rest : List Token}

/-- Reports that begin one behind the other are all added, and nothing else. -/
theorem reported_recordAll {misfits : List Token}
    (h : misfits.Pairwise fun misfit later => misfit.offset < later.offset)
    (hlater : ∀ report ∈ state.reported, ∀ misfit ∈ misfits, report.start < misfit.offset) :
    (state.recordAll misfits).reported =
      (misfits.map Diagnostic.malformedAt).reverse ++ state.reported := by
  induction misfits generalizing state with
  | nil => rfl
  | cons misfit misfits ih =>
      obtain ⟨hfirst, hrest⟩ := List.pairwise_cons.1 h
      have hadded : (state.record (.malformedAt misfit)).reported =
          .malformedAt misfit :: state.reported := by
        rcases record_cases (.malformedAt misfit) state with ⟨last, hlast, hsame, -⟩ | ⟨-, hadded⟩
        · have hless : last.start < misfit.offset := hlater last hlast misfit List.mem_cons_self
          exact (Nat.ne_of_lt hless hsame).elim
        · exact hadded
      show ((state.record (.malformedAt misfit)).recordAll misfits).reported = _
      rw [ih hrest, hadded]
      · simp
      · intro report hreport later hmem
        rw [hadded] at hreport
        rcases List.mem_cons.1 hreport with rfl | hreport
        · exact hfirst later hmem
        · exact hlater report hreport later (List.mem_cons_of_mem _ hmem)

/-- What is reported in a requirement starts behind its word, and each token behind the one
before. -/
theorem reported_misfits {form : RequirementForm} (hplaced : state.cursor.Placed source)
    (hfaces : state.Faces (form.tokens ++ rest))
    (hbefore : ∀ report ∈ state.reported, report.start ≤ state.offset source) :
    (state.recordAll (misfits form.allNames)).reported =
      ((misfits form.allNames).map Diagnostic.malformedAt).reverse ++ state.reported := by
  have hword : state.Faces (form.word :: (form.tokens.tail ++ rest)) := hfaces
  have hsublist : (misfits form.allNames).Sublist (form.tokens.tail ++ rest) :=
    (RequirementForm.misfits_sublist form).trans (List.sublist_append_left _ _)
  have hascending : (form.word :: (form.tokens.tail ++ rest)).Pairwise fun token later =>
      token.offset < later.offset := by
    refine (hword.toSees.pairwise_stop hplaced).imp_of_mem fun hmem _ hle => ?_
    exact Nat.lt_of_lt_of_le (hword.toSees.takes hplaced hmem).1 hle
  obtain ⟨hbehind, hothers⟩ := List.pairwise_cons.1 hascending
  refine reported_recordAll (hothers.sublist hsublist) fun report hreport misfit hmisfit => ?_
  have hstart := hbefore report hreport
  rw [hword.offset] at hstart
  exact Nat.lt_of_le_of_lt hstart (hbehind misfit (hsublist.subset hmisfit))

end ParseState

/-! ## Indices in scans and in requirements -/

namespace Scanning

open RequirementForm (misfits)

/-- A scan that comes to the type of class references with an index makes one node of both, and
goes on behind the closing bracket: a reference to the class if the index is a single string, and
else one to the type with the index as a stretch; nothing is reported.  In a requirement each index
that is no single string is reported, just once and at the first token that does not fit, and it is
kept as a stretch in its place among the names; those behind it are read as if it were well formed.
As in every parse, what has been reported before may not lie ahead of the word.  The name of a
class lies between the quotes of its string where these are spelled as they are, and only there. -/
theorem step_classIndex (multiline : Bool) (source : List Char) (stops : List TokenKind)
    (scanning : Scanning) (rest : List Token)
    (htokens : scanning.state.cursor.tokens = (TokenStream.lex multiline source).tokens) :
    (∀ form : IndexForm, form.WellFormed source →
      scanning.state.Faces (form.tokens ++ rest) →
      scanning.endsAt stops .identifier = false →
      ∃ node after,
        scanning.step source (Manifest.scan source) stops =
          .again { scanning with
            children := scanning.children ++ [node]
            state := after } ∧
        form.Shown source node ∧ after.Faces rest ∧
        after.reported = scanning.state.reported) ∧
    ∀ form : RequirementForm, form.WellFormed source →
      scanning.state.Faces (form.tokens ++ rest) →
      scanning.endsAt stops form.word.kind = false →
      (form.brackets? = none → ∀ token, rest.head? = some token → token.kind ≠ .comma) →
      (∀ report ∈ scanning.state.reported, report.start ≤ scanning.state.offset source) →
      ∃ names after,
        scanning.step source (Manifest.scan source) stops =
          .again { scanning with
            children := scanning.children ++ [form.call source names]
            state := after } ∧
        List.Forall₂ (NameForm.Shown source) form.allNames names ∧ after.Faces rest ∧
        after.reported =
          ((misfits form.allNames).map Diagnostic.malformedAt).reverse ++
            scanning.state.reported := by
  constructor
  · intro form hform hfaces hends
    exact step_index (Cursor.placed_of_lex hfaces.begun htokens) hfaces hform hends
  · intro form hform hfaces hends hrest hbefore
    have hplaced : scanning.state.cursor.Placed source := Cursor.placed_of_lex hfaces.begun htokens
    obtain ⟨names, last, -, hstep, hshown, hafter, hreported⟩ :=
      step_requirement hplaced hfaces hform hends hrest
    refine ⟨names, form.behind last, hstep, hshown, hafter, ?_⟩
    rw [hreported, ParseState.reported_misfits hplaced hfaces hbefore]

def loneIndex : List Char :=
  "Class[$a, 'b'] $c".toList

def writtenIndex : IndexForm where
  type := .loose .identifier 0 5
  opening := .spelled .leftBracket 5
  index := [.loose .variable 6 2, .spelled .comma 8, .loose .string 10 3]
  closing := .spelled .rightBracket 13

def onIndex : Scanning :=
  .begin (ParseState.ofTokens (TokenStream.lex false loneIndex).tokens).moveNext

/-- A requirement with an index that goes on behind its string, an empty one, and a word. -/
def misfitList : List Char :=
  "require (Class['c' d], # e\n  Class[], f) $g".toList

def writtenMisfits : RequirementForm where
  word := .spelled .fnRequire 0
  brackets? := some (.spelled .leftParen 8, .spelled .rightParen 39)
  names :=
    [(.indexed ⟨.loose .identifier 9 5, .spelled .leftBracket 14,
        [.loose .string 15 3, .loose .identifier 19 1], .spelled .rightBracket 20⟩,
        .spelled .comma 21),
      (.indexed ⟨.loose .identifier 29 5, .spelled .leftBracket 34, [], .spelled .rightBracket 35⟩,
        .spelled .comma 36)]
  last? := some (.word (.loose .identifier 38 1))

def onMisfits : Scanning :=
  .begin (ParseState.ofTokens (TokenStream.lex false misfitList).tokens).moveNext

/-- The first index is taken out as that of a type.  Of the others the token behind the string is
reported, and the bracket of the empty one. -/
theorem step_classIndex_writtenMisfits :
    (onIndex.state.cursor.tokens = (TokenStream.lex false loneIndex).tokens ∧
      writtenIndex.WellFormed loneIndex ∧
      onIndex.state.Faces (writtenIndex.tokens ++ [.loose .variable 15 2]) ∧
      onIndex.endsAt bodyStops .identifier = false ∧
      ∃ node after,
        onIndex.step loneIndex (Manifest.scan loneIndex) bodyStops =
          .again { onIndex with
            children := onIndex.children ++ [node]
            state := after } ∧
        writtenIndex.Shown loneIndex node ∧ after.Faces [.loose .variable 15 2] ∧
        after.reported = onIndex.state.reported) ∧
    onMisfits.state.cursor.tokens = (TokenStream.lex false misfitList).tokens ∧
      writtenMisfits.WellFormed misfitList ∧
      onMisfits.state.Faces (writtenMisfits.tokens ++ [.loose .variable 41 2]) ∧
      onMisfits.endsAt bodyStops writtenMisfits.word.kind = false ∧
      onMisfits.state.reported = [] ∧
      ∃ names after,
        onMisfits.step misfitList (Manifest.scan misfitList) bodyStops =
          .again { onMisfits with
            children := onMisfits.children ++ [writtenMisfits.call misfitList names]
            state := after } ∧
        List.Forall₂ (NameForm.Shown misfitList) writtenMisfits.allNames names ∧
        after.Faces [.loose .variable 41 2] ∧
        after.reported =
          [.malformedAt (.spelled .rightBracket 35), .malformedAt (.loose .identifier 19 1)] := by
  have htokens : onIndex.state.cursor.tokens = (TokenStream.lex false loneIndex).tokens :=
    (ParseState.leadsTo_moveNext _).tokens_eq
  have hbegun : onIndex.state.cursor.Begun :=
    Cursor.begun_enter [] (TokenStream.lex false loneIndex).tokens
  have hfaces : onIndex.state.Faces (writtenIndex.tokens ++ [.loose .variable 15 2]) :=
    ⟨⟨hbegun, by decide +kernel⟩, by decide +kernel⟩
  have hindex : writtenIndex.WellFormed loneIndex :=
    ⟨by decide, by decide, by decide, ⟨by decide, by decide, by decide⟩, by decide⟩
  have htokens' : onMisfits.state.cursor.tokens = (TokenStream.lex false misfitList).tokens :=
    (ParseState.leadsTo_moveNext _).tokens_eq
  have hbegun' : onMisfits.state.cursor.Begun :=
    Cursor.begun_enter [] (TokenStream.lex false misfitList).tokens
  have hfaces' : onMisfits.state.Faces (writtenMisfits.tokens ++ [.loose .variable 41 2]) :=
    ⟨⟨hbegun', by decide +kernel⟩, by decide +kernel⟩
  have hform : writtenMisfits.WellFormed misfitList := by
    refine ⟨by decide, ?_, by rintro ⟨⟩, ?_, ?_⟩
    · rintro opening closing ⟨⟩
      exact .inr ⟨by decide, by decide⟩
    · refine List.forall_mem_cons.2 ⟨⟨?_, by decide⟩,
        List.forall_mem_singleton.2 ⟨?_, by decide⟩⟩
      · exact ⟨by decide, by decide, by decide, ⟨by decide, by decide, by decide⟩, by decide⟩
      · exact ⟨by decide, by decide, by decide, ⟨by decide, by decide, by decide⟩, by decide⟩
    · rintro name hname
      cases hname
      exact ⟨by decide, by decide⟩
  refine ⟨⟨htokens, hindex, hfaces, rfl,
    (step_classIndex false loneIndex bodyStops onIndex [.loose .variable 15 2] htokens).1
      writtenIndex hindex hfaces rfl⟩, htokens', hform, hfaces', rfl, rfl, ?_⟩
  exact (step_classIndex false misfitList bodyStops onMisfits [.loose .variable 41 2] htokens').2
    writtenMisfits hform hfaces' rfl (by rintro ⟨⟩) (by rintro report ⟨⟩)

def escapedReference : List Char :=
  "Class[\\u0027x\\u0027]".toList

def escapedString : Token :=
  ⟨.string, .sized 6 13, ⟨false, false, false, true⟩, none⟩

def escapedIndex : IndexForm where
  type := .loose .identifier 0 5
  opening := .spelled .leftBracket 5
  index := [escapedString]
  closing := .spelled .rightBracket 19

def onEscaped : Scanning :=
  .begin (ParseState.ofTokens (TokenStream.lex false escapedReference).tokens).moveNext

/-- The name between the quotes is missed: all behind the first character is taken for it, with
the escape of the closing quote. -/
theorem step_classIndex_escapedQuotes :
    onEscaped.state.cursor.tokens = (TokenStream.lex false escapedReference).tokens ∧
      onEscaped.state.Faces escapedIndex.tokens ∧
      escapedIndex.WellFormed escapedReference ∧ escapedIndex.string? = some escapedString ∧
      escapedString.flags.isPartial = false ∧
      escapedString.DelimitedAs escapedReference '\'' "\\u0027".toList ['x'] "\\u0027".toList ∧
      ∃ node after,
        onEscaped.step escapedReference (Manifest.scan escapedReference) bodyStops =
          .again { onEscaped with
            children := onEscaped.children ++ [node]
            state := after } ∧
        node = Node.classRef 6 7 "u0027x\\u0027".toList ∧ node ≠ Node.classRef 6 12 ['x'] := by
  have htokens : onEscaped.state.cursor.tokens =
      (TokenStream.lex false escapedReference).tokens :=
    (ParseState.leadsTo_moveNext _).tokens_eq
  have hbegun : onEscaped.state.cursor.Begun :=
    Cursor.begun_enter [] (TokenStream.lex false escapedReference).tokens
  have hfaces : onEscaped.state.Faces (escapedIndex.tokens ++ []) :=
    ⟨⟨hbegun, by decide +kernel⟩, by decide +kernel⟩
  have hindex : escapedIndex.WellFormed escapedReference :=
    ⟨by decide, by decide, by decide, ⟨by decide, by decide, by decide⟩, by decide⟩
  have hstring : escapedIndex.string? = some escapedString :=
    IndexForm.string?_of_index rfl rfl
  have hspells : Glyph.Spells '\'' "\\u0027".toList :=
    .inr ⟨[], "0027".toList, 39, by decide, List.forall_mem_nil _, by decide, by decide,
      by decide⟩
  obtain ⟨node, after, hstep, hshown, -⟩ :=
    step_index (Cursor.placed_of_lex hbegun htokens) hfaces hindex
      (rfl : onEscaped.endsAt bodyStops .identifier = false)
  unfold IndexForm.Shown at hshown
  rw [hstring] at hshown
  have hnode : node = Node.classRef 6 7 "u0027x\\u0027".toList := by
    have hunquote : Quotation.unquote (escapedString.text escapedReference) =
        "u0027x\\u0027".toList := by decide +kernel
    rw [hshown.reference, hunquote]
    rfl
  refine ⟨htokens, hfaces, hindex, hstring, rfl, ⟨.inl rfl, by decide, hspells, hspells⟩,
    node, after, hstep, hnode, ?_⟩
  rw [hnode, Ne, Node.classRef_inj]
  decide

end Scanning

end Manifest
