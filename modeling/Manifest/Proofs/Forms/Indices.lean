import Manifest.Proofs.Forms.Facing
import Manifest.Proofs.Lexing.Delimiters
import Manifest.Proofs.Parsing.Requirements

/-!
# Indices of class references that are written out

The type of class references names a class just where its index is a single string.  The parse
tries that first, and goes back if a token does not fit.  A scan then takes the index for that of
any other type; a requirement reports the token, and keeps the index as a stretch.
-/

namespace Manifest

/-! ## Forms -/

/-- The type of class references with its index as it is written, without its blanks. -/
structure IndexForm where
  type : Token
  opening : Token
  index : List Token
  closing : Token

namespace IndexForm

def tokens (form : IndexForm) : List Token :=
  form.type :: form.opening :: (form.index ++ [form.closing])

structure WellFormed (source : List Char) (form : IndexForm) : Prop where
  type : form.type.kind = .identifier
  text : form.type.text source = classTypeName
  opening : form.opening.kind = .leftBracket
  index : PlainRun [] form.index
  closing : form.closing.kind = .rightBracket

def string? (form : IndexForm) : Option Token :=
  match form.index with
  | [token] => if token.kind = .string then some token else none
  | _ => none

/-- The first token that does not fit a single string with a bracket behind it. -/
def misfit? (form : IndexForm) : Option Token :=
  match form.index with
  | [] => some form.closing
  | token :: others => if token.kind = .string then others.head? else some token

/-- The index as a stretch of the text, from the end of its opening bracket to the end of its
closing one. -/
structure Spans (form : IndexForm) (node : Node) : Prop where
  isBlob : node.isBlob = true
  offset : node.offset = form.opening.stop
  endOffset : node.endOffset = form.closing.stop

/-- An index is a single string or has a token that does not fit. -/
theorem misfit?_cases (form : IndexForm) :
    (∃ token, form.string? = some token ∧ form.misfit? = none) ∨
      ∃ misfit, form.string? = none ∧ form.misfit? = some misfit := by
  unfold string? misfit?
  rcases form.index with _ | ⟨token, _ | ⟨second, others⟩⟩
  · exact .inr ⟨_, rfl, rfl⟩
  · by_cases hkind : token.kind = .string
    · exact .inl ⟨token, if_pos hkind, if_pos hkind⟩
    · exact .inr ⟨token, if_neg hkind, if_neg hkind⟩
  · by_cases hkind : token.kind = .string
    · exact .inr ⟨second, rfl, if_pos hkind⟩
    · exact .inr ⟨token, rfl, if_neg hkind⟩

variable {form : IndexForm} {token : Token}

theorem eq_of_string? (h : form.string? = some token) :
    form.index = [token] ∧ token.kind = .string := by
  unfold string? at h
  split at h
  · rename_i only hindex
    split at h
    · rename_i hkind
      obtain rfl := Option.some.inj h
      exact ⟨hindex, hkind⟩
    · cases h
  · cases h

theorem string?_of_index (h : form.index = [token]) (hkind : token.kind = .string) :
    form.string? = some token := by
  unfold string?
  rw [h]
  exact if_pos hkind

theorem mem_of_misfit? (h : form.misfit? = some token) : token ∈ form.index ++ [form.closing] := by
  unfold misfit? at h
  split at h
  · rename_i hindex
    obtain rfl := Option.some.inj h
    simp
  · rename_i first others hindex
    rw [hindex]
    split at h
    · exact List.mem_append_left _ (List.mem_cons_of_mem _ (List.mem_of_mem_head? h))
    · obtain rfl := Option.some.inj h
      exact List.mem_append_left _ List.mem_cons_self

end IndexForm

/-! ## Strings that name classes -/

theorem Node.classRef_inj {offset start start' : Int} {name name' : List Char} :
    Node.classRef offset start name = Node.classRef offset start' name' ↔
      start = start' ∧ name = name' := by
  simp [Node.classRef, Node.leaf]

namespace Token

variable {source : List Char} {token : Token} {node : Node} {quote : Char}
  {name opening content closing : List Char}

/-- The reference to the class that a string names is at the string, and the name one further.
This is where the name of a closed string is just if both quotes are spelled as they are. -/
structure NamesClass (source : List Char) (token : Token) (node : Node) : Prop where
  reference : node = Node.classRef token.offset (token.offset + 1 : Nat)
    (Quotation.unquote (token.text source))
  between : token.flags.isPartial = false → ∀ quote opening content closing,
    token.DelimitedAs source quote opening content closing →
      (node = Node.classRef token.offset (token.offset + opening.length : Nat) content ↔
        opening = [quote] ∧ closing = [quote])

theorem unquote_of_quotes (hquote : IsQuote quote)
    (htext : token.text source = quote :: (name ++ [quote])) :
    Quotation.unquote (token.text source) = name := by
  have hquoted : Quotation.isQuoted (quote :: (name ++ [quote])) = true := by
    rw [Quotation.isQuoted_cons hquote]
    simp
  rw [htext, Quotation.unquote_of_quoted hquoted]
  simp [Quotation.inner]

/-- What unquoting leaves is the content one behind the beginning just if the tree agrees with the
lexer on the quotes: an escape is longer than a quote, and is not taken off at the end. -/
theorem DelimitedAs.unquote_eq_iff (h : token.DelimitedAs source quote opening content closing)
    (hclosed : token.flags.isPartial = false) :
    1 = opening.length ∧ Quotation.unquote (token.text source) = content ↔
      opening = [quote] ∧ closing = [quote] := by
  have hagrees : token.AgreesOn source content ↔ opening = [quote] ∧ closing = [quote] := by
    simpa [hclosed] using h.agreesOn_iff
  constructor
  · rintro ⟨hlength, hunquote⟩
    rw [← hagrees]
    have htext : token.text source = opening ++ (content ++ closing) := by
      rw [h.text, List.append_assoc]
    have hdrop : (token.text source).drop 1 = content ++ closing := by
      rw [htext, hlength, List.drop_left]
    have hends : closing ≠ [] := by
      have hclosing := h.closing
      rw [hclosed, if_neg Bool.false_ne_true] at hclosing
      rcases hclosing with rfl | ⟨more, digits, code, rfl, -⟩ <;> exact List.cons_ne_nil _ _
    cases hquoted : Quotation.isQuoted (token.text source) with
    | true =>
        have hnonempty : token.text source ≠ [] := by
          rw [htext]
          simp [hends]
        rw [Quotation.unquote_of_quoted hquoted] at hunquote
        exact (agreesOn_of_isQuoted hnonempty hquoted).2 ⟨hclosed, hunquote⟩
    | false =>
        rw [Quotation.unquote_of_not_quoted hquoted, hdrop] at hunquote
        exact (hends (List.append_right_eq_self.1 hunquote)).elim
  · intro hquotes
    have hunquote := (hagrees.2 hquotes).unquote
    obtain ⟨rfl, rfl⟩ := hquotes
    exact ⟨rfl, hunquote⟩

theorem namesClass_quotedClassRef (source : List Char) (token : Token) :
    token.NamesClass source (ParseState.quotedClassRef source token) where
  reference := rfl
  between := by
    intro hclosed quote opening content closing hdelimited
    rw [← hdelimited.unquote_eq_iff hclosed]
    unfold ParseState.quotedClassRef
    rw [Node.classRef_inj, Int.natCast_inj, Nat.add_left_cancel_iff]

end Token

/-! ## Class references -/

/-- A report that the index of a class reference does not fit from a token on. -/
def Diagnostic.malformedAt (token : Token) : Diagnostic :=
  .of .malformedClassReference token.range none

section References

variable {source : List Char} {state : ParseState} {form : IndexForm} {token : Token}
  {rest : List Token}

/-- In an index the bracket behind a string is the one that closes it. -/
theorem PlainRun.kind_second_ne {second : Token} {others : List Token}
    (h : PlainRun [] (token :: second :: others)) (hkind : token.kind = .string) :
    second.kind ≠ .rightBracket := by
  obtain ⟨further, hafter, hnested⟩ := Bracket.exists_after h.nested
  rw [hkind] at hafter
  obtain rfl : [] = further :=
    Option.some.inj ((Bracket.after_other rfl rfl []).symm.trans hafter)
  have hothers : PlainRun [] (second :: others) :=
    h.part (List.infix_cons (List.infix_refl _)) hnested
  have hopen : Bracket.closedBy? ((second :: others).headD token).kind = none :=
    hothers.closedBy?_headD (by rw [hkind]; rfl)
  intro hclosing
  have hsecond : Bracket.closedBy? second.kind = none := hopen
  rw [hclosing] at hsecond
  cases hsecond

namespace ParseState

theorem reported_record_congr {other : ParseState} (h : state.reported = other.reported)
    (diagnostic : Diagnostic) :
    (state.record diagnostic).reported = (other.record diagnostic).reported := by
  rcases state with ⟨cursor, reported⟩
  rcases other with ⟨place, reports⟩
  obtain rfl : reported = reports := h
  unfold record
  dsimp only
  split
  · split
    · rfl
    · rfl
  · rfl

theorem reported_malformedReference {report : Bool} (h : state.token? = some token) :
    (state.malformedReference source report).2.reported =
      if report then (state.record (.malformedAt token)).reported else state.reported := by
  unfold malformedReference
  cases report with
  | true =>
      show (state.reportHere source .malformedClassReference).reported =
        (state.record (.malformedAt token)).reported
      unfold reportHere currentRange
      rw [h]
      rfl
  | false => rfl

/-- With a single string for an index there is a reference to the class it names. -/
theorem classReference_string (hfaces : state.Faces (form.tokens ++ rest))
    (hform : form.WellFormed source) (hstring : form.string? = some token) (report : Bool) :
    ∃ last, state.classReference source report = (some (quotedClassRef source token), last) ∧
      last.Faces (form.closing :: rest) ∧ last.reported = state.reported := by
  obtain ⟨hindex, hkind⟩ := IndexForm.eq_of_string? hstring
  have htype : state.Faces (form.type :: form.opening :: token :: form.closing :: rest) := by
    simpa [IndexForm.tokens, hindex] using hfaces
  have hopening := htype.next
  have hname := hopening.next
  refine ⟨state.next.next.next, ?_, hname.next, rfl⟩
  unfold classReference
  simp [hopening.isAt, hname.token?, hname.next.isAt, hform.opening, hform.closing, hkind]

/-- With any other index there is none, and what is reported is the first token that does not
fit. -/
theorem classReference_misfit (hfaces : state.Faces (form.tokens ++ rest))
    (hform : form.WellFormed source) (hmisfit : form.misfit? = some token) (report : Bool) :
    ∃ failed, state.classReference source report = (none, failed) ∧
      failed.reported =
        if report then (state.record (.malformedAt token)).reported else state.reported := by
  have htype : state.Faces (form.type :: form.opening :: (form.index ++ form.closing :: rest)) := by
    simpa [IndexForm.tokens] using hfaces
  have hopening := htype.next
  have hfails : ∀ failed : ParseState, failed.token? = some token →
      failed.reported = state.reported →
      state.classReference source report = failed.malformedReference source report →
      ∃ failed, state.classReference source report = (none, failed) ∧
        failed.reported =
          if report then (state.record (.malformedAt token)).reported else state.reported := by
    intro failed htoken hreported hread
    refine ⟨(failed.malformedReference source report).2, hread, ?_⟩
    rw [reported_malformedReference htoken]
    split
    · exact reported_record_congr hreported _
    · exact hreported
  have hindex := hform.index
  unfold IndexForm.misfit? at hmisfit
  rcases hrun : form.index with _ | ⟨first, others⟩
  · rw [hrun] at hmisfit hopening
    obtain rfl := Option.some.inj hmisfit
    have hname : state.next.next.Faces (form.closing :: rest) := hopening.next
    refine hfails state.next.next hname.token? rfl ?_
    unfold classReference
    simp [hopening.isAt, hname.token?, hform.opening, hform.closing]
  · rw [hrun] at hmisfit hopening hindex
    have hname : state.next.next.Faces (first :: (others ++ form.closing :: rest)) :=
      hopening.next
    dsimp only at hmisfit
    split at hmisfit
    · rename_i hkind
      obtain ⟨further, rfl⟩ := List.head?_eq_some_iff.1 hmisfit
      have hsecond := hindex.kind_second_ne hkind
      refine hfails state.next.next.next hname.next.token? rfl ?_
      unfold classReference
      simp [hopening.isAt, hname.token?, hname.next.isAt, hform.opening, hkind, hsecond]
    · rename_i hkind
      obtain rfl := Option.some.inj hmisfit
      refine hfails state.next.next hname.token? rfl ?_
      unfold classReference
      simp [hopening.isAt, hname.token?, hform.opening, hkind]

end ParseState

/-- The index behind an opening bracket is scanned as a stretch, up to the closing one. -/
theorem Scan.passes_index (hplaced : state.cursor.Placed source)
    (hfaces : state.Faces (form.opening :: (form.index ++ form.closing :: rest)))
    (hform : form.WellFormed source) :
    ∃ index last, (Manifest.scan source).inside source indexStops state = (index, last) ∧
      form.Spans index ∧ last.Faces (form.closing :: rest) ∧
      last.reported = state.reported ∧ last.cursor.Placed source := by
  have hbehind : state.moveNext.offset source = form.opening.stop :=
    hplaced.offset_moveNext hfaces.token?
  obtain ⟨first, hfirst⟩ := hfaces.moveNext.exists_token? (by simp)
  have hoffset : state.moveNext.offset source = first.offset :=
    ParseState.offset_of_token? hfirst
  have hpasses := Scan.passes_run (ParseState.placed_moveNext hplaced) hfaces.moveNext
    (hform.index.passable_closing .square) (by decide)
    (show indexStops.contains form.closing.kind = true by rw [hform.closing]; rfl)
    (Nat.le_of_eq hoffset.symm)
  have hinside : (Manifest.scan source).inside source indexStops state =
      Manifest.scan source first.offset indexStops state.moveNext := by
    unfold inside here
    rw [hoffset]
  have hstart : (first.offset : Int) = form.opening.stop := by rw [← hoffset, hbehind]
  exact ⟨_, _, hinside, ⟨hpasses.stretches.isBlob, hpasses.stretches.offset.trans hstart,
    hpasses.stretches.endOffset⟩, hpasses.faces, hpasses.reported, hpasses.placed⟩

end References

/-! ## Scans that come to an index -/

namespace IndexForm

/-- What a scan makes of the form: a reference to the class that a single string names, or a
reference to the type with the index as a stretch. -/
def Shown (source : List Char) (form : IndexForm) (node : Node) : Prop :=
  match form.string? with
  | some token => token.NamesClass source node
  | none => ∃ index, node = ⟨form.type.offset, none, .typeReference classTypeName, [index]⟩ ∧
      form.Spans index

end IndexForm

namespace Scanning

variable {source : List Char} {stops : List TokenKind} {scanning : Scanning} {form : IndexForm}
  {rest : List Token}

theorem applied?_index (hplaced : scanning.state.cursor.Placed source)
    (hfaces : scanning.state.Faces (form.tokens ++ rest)) (hform : form.WellFormed source) :
    ∃ node last,
      scanning.applied? source (Manifest.scan source) form.type =
        some ((scanning.add [node]).advance last) ∧
      form.Shown source node ∧ last.Faces (form.closing :: rest) ∧
      last.reported = scanning.state.reported := by
  have htype : scanning.state.Faces
      (form.type :: form.opening :: (form.index ++ form.closing :: rest)) := by
    simpa [IndexForm.tokens] using hfaces
  have hparen : scanning.state.next.isAt .leftParen = false := by
    rw [htype.next.isAt, hform.opening]
    rfl
  have hbracket : scanning.state.next.isAt .leftBracket = true := by
    rw [htype.next.isAt, hform.opening]
    rfl
  unfold IndexForm.Shown applied?
  dsimp only
  rw [if_neg (by rw [hparen]; decide), if_pos hbracket, if_pos hform.text]
  rcases form.misfit?_cases with ⟨token, hstring, -⟩ | ⟨misfit, hstring, hmisfit⟩
  · obtain ⟨last, hread, hlast, hreported⟩ :=
      ParseState.classReference_string hfaces hform hstring false
    refine ⟨ParseState.quotedClassRef source token, last, ?_, ?_, hlast, hreported⟩
    · rw [hread]
    · rw [hstring]
      exact Token.namesClass_quotedClassRef source token
  · obtain ⟨failed, hread, -⟩ := ParseState.classReference_misfit hfaces hform hmisfit false
    obtain ⟨index, last, hindex, hspans, hlast, hreported, -⟩ :=
      Scan.passes_index (ParseState.placed_next hplaced) htype.next hform
    have hcapital : startsWithCapital classTypeName = true := by decide +kernel
    refine ⟨⟨form.type.offset, none, .typeReference classTypeName, [index]⟩, last, ?_, ?_, hlast,
      hreported⟩
    · rw [hread, hform.text]
      dsimp only
      rw [if_pos hcapital, hindex]
    · rw [hstring]
      exact ⟨index, rfl, hspans⟩

/-- A scan that comes to the form, and does not end there, takes it out and goes on behind it. -/
theorem step_index (hplaced : scanning.state.cursor.Placed source)
    (hfaces : scanning.state.Faces (form.tokens ++ rest)) (hform : form.WellFormed source)
    (hends : scanning.endsAt stops .identifier = false) :
    ∃ node after,
      scanning.step source (Manifest.scan source) stops =
        .again { scanning with
          children := scanning.children ++ [node]
          state := after } ∧
      form.Shown source node ∧ after.Faces rest ∧
      after.reported = scanning.state.reported := by
  obtain ⟨node, last, happlied, hshown, hlast, hreported⟩ := applied?_index hplaced hfaces hform
  refine ⟨node, last.next, ?_, hshown, hlast.next, hreported⟩
  have htype : scanning.state.Faces (form.type :: (form.tokens.tail ++ rest)) := hfaces
  have htoken : scanning.tokenAt source (Manifest.scan source) stops form.type =
      (scanning.add [node]).advance last := by
    unfold tokenAt significantAt wordAt
    rw [if_neg (by rw [htype.significant]; decide), happlied, hform.type]
    rfl
  unfold step
  rw [htype.token?]
  dsimp only
  rw [hform.type, hends, htoken]
  rfl

end Scanning

end Manifest
