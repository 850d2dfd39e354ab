import Manifest.Parse.Construct
import Manifest.Proofs.Forms.Facing

/-!
# Parameter lists that are written out

A parameter is a type, a variable and a default, and may do without the first and the last of
them.  A comma inside of the square brackets of a type belongs to the type, and one inside of a
default to the scan of the default, so each comma that a list comes to by itself closes a
parameter.
-/

namespace Manifest

/-! ## Types -/

/-- The tokens of a type that tell its commas from those between parameters. -/
def squares (run : List Token) : List Token :=
  run.filter fun token => [TokenKind.leftBracket, .rightBracket, .comma].contains token.kind

/-- A row of tokens that a type may be written with: it closes the square brackets that are open,
these are properly nested in it, and its commas stand inside of them. -/
structure TypeRun (opened : List Bracket) (run : List Token) : Prop where
  kinds : ∀ token ∈ run, token.kind ≠ .variable ∧ token.kind ≠ .rightParen
  nested : Bracket.afterAll opened (squares run) = some []
  commas : ∀ token ∈ Bracket.outside opened (squares run), token.kind ≠ .comma

section Types

variable {opened : List Bracket} {token : Token} {run : List Token}

/-- The depth of a type is the number of its square brackets that are open; it is positive at a
comma. -/
theorem TypeRun.tail (h : TypeRun opened (token :: run)) :
    ∃ further : List Bracket, TypeRun further run ∧
      Params.depthAfter opened.length token.kind = further.length ∧
      (token.kind = .comma → 0 < further.length) := by
  obtain ⟨-, hkinds⟩ := List.forall_mem_cons.1 h.kinds
  have hnested := h.nested
  have hcommas := h.commas
  by_cases hsquare : [TokenKind.leftBracket, .rightBracket, .comma].contains token.kind = true
  · have hcons : squares (token :: run) = token :: squares run := List.filter_cons_of_pos hsquare
    rw [hcons] at hnested hcommas
    obtain ⟨further, hafter, hrest⟩ := Bracket.exists_after hnested
    have htail : TypeRun further run :=
      ⟨hkinds, hrest, fun other hother => hcommas other (Bracket.outside_subset hafter _ hother)⟩
    refine ⟨further, htail, ?_⟩
    have hcases : token.kind = .leftBracket ∨ token.kind = .rightBracket ∨ token.kind = .comma := by
      simpa using hsquare
    rcases hcases with hkind | hkind | hkind
    · rw [hkind] at hafter
      obtain rfl : .square :: opened = further :=
        Option.some.inj ((Bracket.after_opening rfl opened).symm.trans hafter)
      rw [hkind]
      exact ⟨rfl, nofun⟩
    · rw [hkind] at hafter
      rcases Bracket.after_cases hafter with ⟨bracket, hopens, -⟩ | ⟨bracket, -, rfl⟩ |
        ⟨-, hcloses, -⟩
      · cases hopens
      · rw [hkind]
        exact ⟨Int.add_sub_cancel (further.length : Int) 1, nofun⟩
      · cases hcloses
    · have hinside : opened ≠ [] := by
        rintro rfl
        exact hcommas token (Bracket.mem_outside hafter) hkind
      rw [hkind] at hafter
      obtain rfl : opened = further :=
        Option.some.inj ((Bracket.after_other rfl rfl opened).symm.trans hafter)
      rw [hkind]
      exact ⟨rfl, fun _ => List.length_pos_iff.2 hinside⟩
  · have hcons : squares (token :: run) = squares run := List.filter_cons_of_neg hsquare
    rw [hcons] at hnested hcommas
    have hother : token.kind ≠ .leftBracket ∧ token.kind ≠ .rightBracket ∧ token.kind ≠ .comma := by
      simpa using hsquare
    refine ⟨opened, ⟨hkinds, hnested, hcommas⟩, ?_, fun hkind => (hother.2.2 hkind).elim⟩
    unfold Params.depthAfter
    split
    · rename_i hkind
      exact (hother.1 hkind).elim
    · rename_i hkind
      exact (hother.2.1 hkind).elim
    · rfl

end Types

/-! ## Ranges of types -/

namespace Params

def extend (type? : Option TextRange) (token : Token) : Option TextRange :=
  some ((type?.map fun type => type.cover token.range).getD token.range)

/-- The range of a type goes from where it began to the end of its last token. -/
theorem foldl_extend {run : List Token} (type : TextRange)
    (h : run.Pairwise fun token later => token.stop ≤ later.offset)
    (hbehind : ∀ token ∈ run, type.stop ≤ token.offset) :
    ∃ range : TextRange, run.foldl extend (some type) = some range ∧ range.start = type.start ∧
      range.stop = (run.getLast?.map Token.stop).getD type.stop := by
  induction run generalizing type with
  | nil => exact ⟨type, rfl, rfl, rfl⟩
  | cons token run ih =>
      obtain ⟨hlater, hrest⟩ := List.pairwise_cons.1 h
      have hfirst : type.stop ≤ token.range.start := hbehind token List.mem_cons_self
      have hstart : (type.cover token.range).start = type.start :=
        Nat.min_eq_left (Nat.le_trans type.start_le_stop hfirst)
      have hstop : (type.cover token.range).stop = token.stop :=
        Nat.max_eq_right (Nat.le_trans hfirst token.range.start_le_stop)
      obtain ⟨range, hfold, hbegins, hends⟩ := ih (type.cover token.range) hrest
        (by rw [hstop]; exact hlater)
      refine ⟨range, hfold, hbegins.trans hstart, hends.trans ?_⟩
      rw [hstop, List.getLast?_cons]
      exact Option.getD_map Token.stop token run.getLast?

end Params

/-! ## Forms -/

structure ParamForm where
  type : List Token
  name : Token
  default? : Option (Token × List Token)

structure ParamListForm where
  opening : Token
  /-- The parameters that have a comma behind them. -/
  params : List (ParamForm × Token)
  /-- A parameter right before the closing parenthesis. -/
  last? : Option ParamForm
  closing : Token

namespace ParamForm

def defaultTokens (form : ParamForm) : List Token :=
  match form.default? with
  | some (equals, value) => equals :: value
  | none => []

def tokens (form : ParamForm) : List Token :=
  form.type ++ form.name :: form.defaultTokens

structure WellFormed (form : ParamForm) : Prop where
  type : TypeRun [] form.type
  name : form.name.kind = .variable
  default : ∀ equals value, form.default? = some (equals, value) →
    equals.kind = .equals ∧ PassableRun [.comma] [] value

/-- A parameter begins with its type, or with its variable if it has none. -/
def start (form : ParamForm) : Nat :=
  (form.type.headD form.name).offset

def typeText (source : List Char) (form : ParamForm) : List Char :=
  match form.type.getLast? with
  | some last => (source.drop form.start).take (last.stop - form.start)
  | none => defaultParamType

/-- The node of a parameter with the token behind it: the type, the variable, and the stretch of
the default if that is written. -/
def Shown (source : List Char) (entry : ParamForm × Token) (node : Node) : Prop :=
  ∃ value? : Option Node,
    node = ⟨entry.1.start, none,
      .classParam (entry.1.typeText source) (.child 0) (value?.map fun _ => .child 1),
      Node.plainDefinition entry.1.name.offset (entry.1.name.text source) :: value?.toList⟩ ∧
    Option.Rel (fun (default : Token × List Token) (value : Node) =>
      value.Stretches (default.2.headD entry.2) entry.2) entry.1.default? value?

end ParamForm

namespace ParamListForm

def entryTokens (entry : ParamForm × Token) : List Token :=
  entry.1.tokens ++ [entry.2]

def lastTokens (form : ParamListForm) : List Token :=
  (form.last?.map ParamForm.tokens).getD []

def tokens (form : ParamListForm) : List Token :=
  form.opening :: (form.params.flatMap entryTokens ++ (form.lastTokens ++ [form.closing]))

/-- All parameters, each with the comma or the parenthesis behind it. -/
def entries (form : ParamListForm) : List (ParamForm × Token) :=
  form.params ++ (form.last?.map fun param => (param, form.closing)).toList

structure WellFormed (form : ParamListForm) : Prop where
  opening : form.opening.kind = .leftParen
  params : ∀ entry ∈ form.params, entry.1.WellFormed ∧ entry.2.kind = .comma
  last : ∀ param, form.last? = some param → param.WellFormed
  closing : form.closing.kind = .rightParen

end ParamListForm

/-! ## Parameters -/

namespace Params

variable {source : List Char} {state : ParseState} {form : ParamForm} {stop : Token}
  {rest : List Token} {opened : List Bracket} {run : List Token} {params : List Node}

theorem reads_type (params : List Node) (type? : Option TextRange)
    (hplaced : state.cursor.Placed source)
    (hfaces : state.Faces (run ++ rest)) (htype : TypeRun opened run) :
    ∃ after,
      GoesOn (step source (Manifest.scan source)) run.length
        ⟨params, type?, none, none, opened.length, state⟩
        ⟨params, run.foldl extend type?, none, none, 0, after⟩ ∧
      after.Faces rest ∧ after.reported = state.reported ∧ after.cursor.Placed source := by
  induction run generalizing opened type? state with
  | nil =>
      obtain rfl : opened = [] := Option.some.inj htype.nested
      exact ⟨state, .refl _ _, hfaces, rfl, hplaced⟩
  | cons token run ih =>
      obtain ⟨further, htail, hdepth, hcomma⟩ := htype.tail
      obtain ⟨hvariable, hparen⟩ := htype.kinds token List.mem_cons_self
      have hfirst : state.Faces (token :: (run ++ rest)) := hfaces
      have hinside : ¬ (token.kind = .comma ∧ (further.length : Int) ≤ 0) := by
        rintro ⟨hkind, hle⟩
        have hpos := hcomma hkind
        omega
      have hstep : step source (Manifest.scan source)
          ⟨params, type?, none, none, opened.length, state⟩ =
            .again ⟨params, extend type? token, none, none, further.length, state.next⟩ := by
        unfold step
        dsimp only
        rw [hfirst.token?]
        dsimp only
        rw [if_neg hparen]
        unfold stepType
        dsimp only
        rw [if_neg hvariable, hdepth, if_neg hinside]
        rfl
      obtain ⟨after, hgoes, hafter, hreported, hplacedAfter⟩ :=
        ih (extend type? token) (ParseState.placed_next hplaced) hfirst.next htail
      refine ⟨after, ?_, hafter, hreported, hplacedAfter⟩
      rw [List.length_cons, Nat.add_comm]
      exact (goesOn_again hstep).trans hgoes

theorem range_of_type (hplaced : state.cursor.Placed source)
    (hsees : state.Sees (form.type ++ rest)) :
    ((form.type.foldl extend none).getD (TextRange.empty form.name.offset)).start = form.start ∧
      typeText source ((form.type.foldl extend none).getD (TextRange.empty form.name.offset)) =
        form.typeText source := by
  unfold ParamForm.typeText ParamForm.start
  cases htype : form.type with
  | nil =>
      refine ⟨rfl, ?_⟩
      have hnone : (TextRange.empty form.name.offset).slice source = [] := by
        simp [TextRange.slice, TextRange.length, TextRange.empty]
      show typeText source (TextRange.empty form.name.offset) = defaultParamType
      unfold typeText
      rw [hnone]
  | cons first run =>
      rw [htype] at hsees
      have htakes : ∀ token ∈ first :: run,
          token.offset < token.stop ∧ token.stop ≤ source.length := fun token htoken =>
        hsees.takes hplaced (List.mem_append_left _ htoken)
      obtain ⟨hlater, hrest⟩ :=
        List.pairwise_cons.1 (List.pairwise_append.1 (hsees.pairwise_stop hplaced)).1
      obtain ⟨range, hfold, hstart, hstop⟩ := foldl_extend first.range hrest hlater
      have hfoldl : (first :: run).foldl extend none = some range := hfold
      rw [hfoldl, List.getLast?_cons]
      refine ⟨hstart, ?_⟩
      generalize hlast : run.getLast?.getD first = last
      have hend : range.stop = last.stop := by
        rw [← hlast, hstop]
        exact Option.getD_map Token.stop first run.getLast?
      have hslice : range.slice source =
          (source.drop first.offset).take (last.stop - first.offset) := by
        unfold TextRange.slice TextRange.length
        rw [hstart, hend]
        rfl
      have hfirst := htakes first List.mem_cons_self
      have hbeyond : first.stop ≤ last.stop := by
        cases hgetLast : run.getLast? with
        | none => rw [← hlast, hgetLast]; exact Nat.le_refl _
        | some token =>
            have hmem : token ∈ run := List.mem_of_getLast? hgetLast
            rw [← hlast, hgetLast]
            exact Nat.le_trans (hlater token hmem)
              (Nat.le_of_lt (htakes token (List.mem_cons_of_mem _ hmem)).1)
      have hnonempty : (source.drop first.offset).take (last.stop - first.offset) ≠ [] := by
        refine List.ne_nil_of_length_pos ?_
        rw [List.length_take, List.length_drop]
        omega
      show typeText source range = _
      unfold typeText
      rw [hslice]
      dsimp only [List.headD_cons]
      split
      · rename_i hnil
        exact (hnonempty hnil).elim
      · rfl

theorem reads_name (params : List Node) (hplaced : state.cursor.Placed source)
    (hfaces : state.Faces (form.type ++ form.name :: rest)) (hform : form.WellFormed) :
    ∃ type after,
      GoesOn (step source (Manifest.scan source)) (form.type.length + 1)
        ⟨params, none, none, none, 0, state⟩
        ⟨params, some type, some ⟨type, form.name⟩, none, 0, after⟩ ∧
      type.start = form.start ∧ typeText source type = form.typeText source ∧
      after.Faces rest ∧ after.reported = state.reported ∧ after.cursor.Placed source := by
  obtain ⟨hstart, htext⟩ := range_of_type hplaced hfaces.toSees
  obtain ⟨between, hgoes, hname, hreported, hplacedName⟩ :=
    reads_type params none hplaced hfaces hform.type
  generalize htype : (form.type.foldl extend none).getD (TextRange.empty form.name.offset) = type
    at hstart htext
  have hstep : step source (Manifest.scan source)
      ⟨params, form.type.foldl extend none, none, none, 0, between⟩ =
        .again ⟨params, some type, some ⟨type, form.name⟩, none, 0, between.next⟩ := by
    unfold step
    dsimp only
    rw [hname.token?]
    dsimp only
    rw [if_neg (by rw [hform.name]; decide)]
    unfold stepType
    dsimp only
    rw [if_pos hform.name, htype]
  exact ⟨type, between.next, hgoes.trans (goesOn_again hstep), hstart, htext, hname.next,
    hreported, ParseState.placed_next hplacedName⟩

/-- Behind the variable, the default of a parameter is read, if there is one; the token behind
it closes the parameter or the list. -/
theorem reads_default (params : List Node) (type : TextRange)
    (hplaced : state.cursor.Placed source)
    (hfaces : state.Faces (form.defaultTokens ++ stop :: rest)) (hform : form.WellFormed)
    (hstop : paramDefaultStops.contains stop.kind = true) :
    ∃ value? after,
      (stop.kind = .comma → step source (Manifest.scan source)
        ⟨params, some type, some ⟨type, form.name⟩, none, 0, state⟩ =
          .again ⟨params ++ [param source ⟨type, form.name⟩ value?], none, none, none, 0,
            after.next⟩) ∧
      (stop.kind = .rightParen → step source (Manifest.scan source)
        ⟨params, some type, some ⟨type, form.name⟩, none, 0, state⟩ =
          .done ⟨params, some type, some ⟨type, form.name⟩, value?, 0, after⟩) ∧
      Option.Rel (fun (default : Token × List Token) (value : Node) =>
        value.Stretches (default.2.headD stop) stop) form.default? value? ∧
      after.Faces (stop :: rest) ∧ after.reported = state.reported ∧
      after.cursor.Placed source := by
  unfold ParamForm.defaultTokens at hfaces
  cases hdefault : form.default? with
  | none =>
      rw [hdefault] at hfaces
      have hatStop : state.Faces (stop :: rest) := hfaces
      refine ⟨none, state, fun hcomma => ?_, fun hparen => ?_, .none, hatStop, rfl, hplaced⟩
      · unfold step
        dsimp only
        rw [hatStop.token?]
        dsimp only
        rw [if_neg (by rw [hcomma]; decide)]
        unfold stepRest
        rw [if_neg (by rw [hcomma]; decide), if_pos hcomma]
        rfl
      · unfold step
        dsimp only
        rw [hatStop.token?]
        exact if_pos hparen
  | some default =>
      obtain ⟨equals, value⟩ := default
      rw [hdefault] at hfaces
      have hequals : state.Faces (equals :: (value ++ stop :: rest)) := hfaces
      obtain ⟨hkind, hvalue⟩ := hform.default equals value hdefault
      have hrun : PassableRun paramDefaultStops [] value := hvalue.or_closing .round
      have hpasses := Scan.passes_here (ParseState.placed_next hplaced) hequals.next hrun
        (by decide) hstop
      have hread : step source (Manifest.scan source)
          ⟨params, some type, some ⟨type, form.name⟩, none, 0, state⟩ =
            stepRest source (Manifest.scan source) equals
              ⟨params, some type, some ⟨type, form.name⟩, none, 0, state⟩ := by
        unfold step
        dsimp only
        rw [hequals.token?]
        exact if_neg (by rw [hkind]; decide)
      refine ⟨some ((Manifest.scan source).here source paramDefaultStops state.next).1,
        ((Manifest.scan source).here source paramDefaultStops state.next).2, fun hcomma => ?_,
        fun hparen => ?_, .some hpasses.stretches, hpasses.faces, hpasses.reported,
        hpasses.placed⟩
      · have hat := hpasses.faces.isAt .comma
        rw [hcomma] at hat
        rw [hread]
        unfold stepRest
        rw [if_pos hkind]
        dsimp only
        rw [if_pos (hat.trans (by decide))]
        rfl
      · have hat := hpasses.faces.isAt
        rw [hparen] at hat
        rw [hread]
        unfold stepRest
        rw [if_pos hkind]
        dsimp only
        rw [hat .comma, if_neg (by decide), hat .rightParen, hpasses.faces.token?]
        rfl

/-- What is read of a parameter is its node. -/
theorem shown_param {type : TextRange} {value? : Option Node} (hstart : type.start = form.start)
    (htext : typeText source type = form.typeText source)
    (hvalue : Option.Rel (fun (default : Token × List Token) (value : Node) =>
      value.Stretches (default.2.headD stop) stop) form.default? value?) :
    ParamForm.Shown source (form, stop) (param source ⟨type, form.name⟩ value?) := by
  refine ⟨value?, ?_, hvalue⟩
  unfold param
  rw [hstart, htext]

theorem reads_param (hplaced : state.cursor.Placed source)
    (hfaces : state.Faces (form.tokens ++ stop :: rest)) (hform : form.WellFormed)
    (hstop : stop.kind = .comma) (params : List Node) :
    ∃ param after,
      GoesOn (step source (Manifest.scan source)) (form.type.length + 2)
        ⟨params, none, none, none, 0, state⟩ ⟨params ++ [param], none, none, none, 0, after⟩ ∧
      ParamForm.Shown source (form, stop) param ∧ after.Faces rest ∧
      after.reported = state.reported ∧ after.cursor.Placed source := by
  have htype : state.Faces (form.type ++ form.name :: (form.defaultTokens ++ stop :: rest)) := by
    simpa [ParamForm.tokens] using hfaces
  obtain ⟨type, named, hname, hstart, htext, hbehind, hreported, hplacedNamed⟩ :=
    reads_name params hplaced htype hform
  obtain ⟨value?, after, hclose, -, hvalue, hafter, hreportedAfter, hplacedAfter⟩ :=
    reads_default params type hplacedNamed hbehind hform (by rw [hstop]; rfl)
  exact ⟨_, after.next, hname.trans (goesOn_again (hclose hstop)),
    shown_param hstart htext hvalue, hafter.next, hreportedAfter.trans hreported,
    ParseState.placed_next hplacedAfter⟩

theorem reads_params {entries : List (ParamForm × Token)} (hplaced : state.cursor.Placed source)
    (hfaces : state.Faces (entries.flatMap ParamListForm.entryTokens ++ rest))
    (hforms : ∀ entry ∈ entries, entry.1.WellFormed ∧ entry.2.kind = .comma)
    (params : List Node) :
    ∃ nodes after count,
      count ≤ (entries.flatMap ParamListForm.entryTokens).length ∧
      GoesOn (step source (Manifest.scan source)) count ⟨params, none, none, none, 0, state⟩
        ⟨params ++ nodes, none, none, none, 0, after⟩ ∧
      List.Forall₂ (ParamForm.Shown source) entries nodes ∧ after.Faces rest ∧
      after.reported = state.reported ∧ after.cursor.Placed source := by
  induction entries generalizing state params with
  | nil =>
      refine ⟨[], state, 0, Nat.le_refl _, ?_, .nil, hfaces, rfl, hplaced⟩
      rw [List.append_nil]
      exact .refl _ _
  | cons entry entries ih =>
      obtain ⟨⟨hform, hcomma⟩, hothers⟩ := List.forall_mem_cons.1 hforms
      have hfirst : state.Faces (entry.1.tokens ++ entry.2 ::
          (entries.flatMap ParamListForm.entryTokens ++ rest)) := by
        rw [List.flatMap_cons, List.append_assoc] at hfaces
        simpa [ParamListForm.entryTokens] using hfaces
      obtain ⟨node, between, hgoes, hshown, hbetween, hreported, hplacedBetween⟩ :=
        reads_param hplaced hfirst hform hcomma params
      obtain ⟨nodes, after, count, hcount, hgoesAll, hshownAll, hafter, hreportedAll,
        hplacedAfter⟩ := ih hplacedBetween hbetween hothers (params ++ [node])
      rw [List.append_assoc] at hgoesAll
      refine ⟨node :: nodes, after, _, ?_, hgoes.trans hgoesAll, .cons hshown hshownAll, hafter,
        hreportedAll.trans hreported, hplacedAfter⟩
      rw [List.flatMap_cons, List.length_append]
      have hentry : entry.1.type.length + 2 ≤ (ParamListForm.entryTokens entry).length := by
        simp only [ParamListForm.entryTokens, ParamForm.tokens, List.length_append,
          List.length_cons, List.length_nil]
        omega
      omega

theorem reads_form {form : ParamListForm} (hplaced : state.cursor.Placed source)
    (hfaces : state.Faces (form.tokens ++ rest)) (hform : form.WellFormed) :
    List.Forall₂ (ParamForm.Shown source) form.entries
        (readAll source (Manifest.scan source) state).params ∧
      (readAll source (Manifest.scan source) state).state.Faces (form.closing :: rest) ∧
      (readAll source (Manifest.scan source) state).state.reported = state.reported := by
  have hopening : state.Faces (form.opening ::
      (form.params.flatMap ParamListForm.entryTokens ++ (form.lastTokens ++
        form.closing :: rest))) := by
    simpa [ParamListForm.tokens] using hfaces
  obtain ⟨nodes, after, count, hcount, hgoes, hshown, hbehind, hreported, hplacedAfter⟩ :=
    reads_params (ParseState.placed_next hplaced) hopening.next hform.params []
  have hlength := hopening.next.toSees.length_le
  rw [List.length_append, List.length_append, List.length_cons] at hlength
  unfold readAll ParamListForm.entries
  dsimp only
  cases hlast : form.last? with
  | none =>
      unfold ParamListForm.lastTokens at hbehind
      rw [hlast] at hbehind
      have hclosing : after.Faces (form.closing :: rest) := hbehind
      have hdone : step source (Manifest.scan source) ⟨nodes, none, none, none, 0, after⟩ =
          .done ⟨nodes, none, none, none, 0, after⟩ := by
        unfold step
        dsimp only
        rw [hclosing.token?]
        exact if_pos hform.closing
      rw [hgoes.iterate_eq hdone (by omega), Option.map_none, Option.toList_none, List.append_nil]
      exact ⟨hshown, hclosing, hreported⟩
  | some param =>
      unfold ParamListForm.lastTokens at hbehind hlength
      rw [hlast] at hbehind hlength
      have hparam := hform.last param hlast
      have htokens : ((some param).map ParamForm.tokens).getD [] = param.tokens := rfl
      rw [htokens] at hbehind hlength
      have htype : after.Faces (param.type ++ param.name ::
          (param.defaultTokens ++ form.closing :: rest)) := by
        simpa [ParamForm.tokens] using hbehind
      obtain ⟨type, named, hname, hstart, htext, hnamed, hreportedNamed, hplacedNamed⟩ :=
        reads_name nodes hplacedAfter htype hparam
      obtain ⟨value?, ending, -, hend, hvalue, hclosing, hreportedEnd, -⟩ :=
        reads_default nodes type hplacedNamed hnamed hparam
          (by rw [hform.closing]; rfl)
      have hfuel : count + (param.type.length + 1) < state.next.remaining + 1 := by
        have htwo : param.type.length + 1 ≤ param.tokens.length := by
          simp only [ParamForm.tokens, List.length_append, List.length_cons]
          omega
        omega
      rw [(hgoes.trans hname).iterate_eq (hend hform.closing) hfuel]
      exact ⟨List.rel_append hshown (.cons (shown_param hstart htext hvalue) .nil), hclosing,
        hreportedEnd.trans (hreportedNamed.trans hreported)⟩

end Params

/-! ## Parameter lists -/

namespace Construct

/-- After its opening parenthesis, with blanks anywhere in what is written, a parameter list is
read as one node for each parameter, in their order, and these are all the children of what holds
the list: a parameter begins with its type, or with its variable, it has the text of its type from
the first to the last token, or a type that takes anything, and it has a default just where one
is written, from the token behind the equals sign to the comma or the parenthesis.  Nothing is
reported, and the parse is left on the closing parenthesis. -/
theorem read_paramList (multiline reportGap valid : Bool) (source : List Char)
    (form : ParamListForm) (rest : List Token) (state : ParseState)
    (htokens : state.cursor.tokens = (TokenStream.lex multiline source).tokens)
    (hfaces : state.Faces (form.tokens ++ rest)) (hform : form.WellFormed) :
    ∃ params container after,
      state.paramList source (Manifest.scan source) = (params, after.next) ∧
      Construct.read source reportGap valid .params state =
        .ok ⟨.count params.length, container, after⟩ ∧
      container.children = params ∧
      container.form = .classDecl none (Node.linksFrom 0 params.length) none ∧
      List.Forall₂ (ParamForm.Shown source) form.entries params ∧
      after.Faces (form.closing :: rest) ∧ after.reported = state.reported := by
  have hplaced : state.cursor.Placed source := Cursor.placed_of_lex hfaces.begun htokens
  obtain ⟨hshown, hclosing, hreported⟩ := Params.reads_form hplaced hfaces hform
  have hopening : state.isAt .leftParen = true := by
    have hfirst : state.Faces (form.opening :: (form.tokens.tail ++ rest)) := hfaces
    rw [hfirst.isAt, hform.opening]
    rfl
  have hlist : state.paramList source (Manifest.scan source) =
      ((Params.readAll source (Manifest.scan source) state).params,
        (Params.readAll source (Manifest.scan source) state).state.next) := by
    unfold ParseState.paramList
    exact if_pos hopening
  refine ⟨_, Node.classDecl (state.offset source) none _ none none, _, hlist, rfl, ?_, rfl,
    hshown, hclosing, hreported⟩
  simp [Node.classDecl]

/-- Parameters with commas inside of a type and of a default, with a comment between them. -/
def writtenList : List Char :=
  "(Hash[F, G] $a = f(1, [$b]), $c, # d\n  Optional[H] $e = \x7b i => 1 \x7d) $j".toList

def writtenParams : ParamListForm where
  opening := .spelled .leftParen 0
  params :=
    [(⟨[.loose .identifier 1 4, .spelled .leftBracket 5, .loose .identifier 6 1,
          .spelled .comma 7, .loose .identifier 9 1, .spelled .rightBracket 10],
        .loose .variable 12 2,
        some (.spelled .equals 15, [.loose .identifier 17 1, .spelled .leftParen 18,
          .loose .int 19 1, .spelled .comma 20, .spelled .leftBracket 22, .loose .variable 23 2,
          .spelled .rightBracket 25, .spelled .rightParen 26])⟩, .spelled .comma 27),
      (⟨[], .loose .variable 29 2, none⟩, .spelled .comma 31)]
  last? := some ⟨[.loose .identifier 39 8, .spelled .leftBracket 47, .loose .identifier 48 1,
      .spelled .rightBracket 49], .loose .variable 51 2,
    some (.spelled .equals 54, [.spelled .leftBrace 56, .loose .identifier 58 1,
      .spelled .paramAssign 60, .loose .int 63 1, .spelled .rightBrace 65])⟩
  closing := .spelled .rightParen 66

def onParams : ParseState :=
  (ParseState.ofTokens (TokenStream.lex false writtenList).tokens).moveNext

/-- The three parameters are read, and the parse is left on the closing parenthesis. -/
theorem read_paramList_writtenParams :
    onParams.cursor.tokens = (TokenStream.lex false writtenList).tokens ∧
      onParams.Faces (writtenParams.tokens ++ [.loose .variable 68 2]) ∧
      writtenParams.WellFormed ∧
      ∃ params container after,
        onParams.paramList writtenList (Manifest.scan writtenList) = (params, after.next) ∧
        Construct.read writtenList true true .params onParams =
          .ok ⟨.count params.length, container, after⟩ ∧
        container.children = params ∧
        container.form = .classDecl none (Node.linksFrom 0 params.length) none ∧
        List.Forall₂ (ParamForm.Shown writtenList) writtenParams.entries params ∧
        after.Faces (writtenParams.closing :: [.loose .variable 68 2]) ∧
        after.reported = onParams.reported := by
  have htokens : onParams.cursor.tokens = (TokenStream.lex false writtenList).tokens :=
    (ParseState.leadsTo_moveNext _).tokens_eq
  have hbegun : onParams.cursor.Begun :=
    Cursor.begun_enter [] (TokenStream.lex false writtenList).tokens
  have hfaces : onParams.Faces (writtenParams.tokens ++ [.loose .variable 68 2]) :=
    ⟨⟨hbegun, by decide +kernel⟩, by decide +kernel⟩
  have hparams : ∀ entry ∈ writtenParams.params, entry.1.WellFormed ∧ entry.2.kind = .comma := by
    refine List.forall_mem_cons.2 ⟨⟨⟨?_, by decide, ?_⟩, by decide⟩,
      List.forall_mem_singleton.2 ⟨⟨?_, by decide, by rintro _ _ ⟨⟩⟩, by decide⟩⟩
    · exact ⟨by decide, by decide, by decide⟩
    · rintro equals value hdefault
      cases hdefault
      exact ⟨by decide, ⟨by decide, by decide, by decide⟩, by decide⟩
    · exact ⟨by decide, by decide, by decide⟩
  have hlast : ∀ param, writtenParams.last? = some param → param.WellFormed := by
    rintro param hparam
    cases hparam
    refine ⟨⟨by decide, by decide, by decide⟩, by decide, ?_⟩
    rintro equals value hdefault
    cases hdefault
    exact ⟨by decide, ⟨by decide, by decide, by decide⟩, by decide⟩
  have hform : writtenParams.WellFormed := ⟨by decide, hparams, hlast, by decide⟩
  exact ⟨htokens, hfaces, hform,
    read_paramList false true true writtenList writtenParams [.loose .variable 68 2] onParams
      htokens hfaces hform⟩

end Construct

end Manifest
