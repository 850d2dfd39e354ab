import Mathlib.Data.List.Basic
import Manifest.Proofs.Reading.Escapes
import Manifest.Proofs.Reading.Routines

/-!
# What a reader remembers

To its callers a reader is a position in the text with the units read last, two of them at most.
Pushing back goes to where one of them began, and reading on gives it again.  Returning to a mark
and closing a token forget them, and a call that is refused changes nothing.
-/

namespace Manifest

namespace Reader

/-! ## Units of a text -/

/-- A text begins with a unit, none past its end, that takes so many characters. -/
inductive ReadsAs : List Char → Option Symbol → Nat → Bool → Prop
  | past : ReadsAs [] none 1 false
  | plain {c : Char} (hplain : c ≠ '\\') (rest : List Char) :
      ReadsAs (c :: rest) (some (.char c)) 1 false
  | escape {ahead written : List Char} {code : Nat} (hbegins : written <+: ahead)
      (hwritten : Glyph.Escapes code written) :
      ReadsAs ahead (some (.ofCode code)) written.length true
  | backslash {rest : List Char}
      (hnone : ∀ written, written <+: '\\' :: rest → ¬Glyph.IsEscape written) :
      ReadsAs ('\\' :: rest) (some (.char '\\')) 1 false

variable {ahead rest : List Char} {unit? other? : Option Symbol} {width otherWidth : Nat}
  {escaped otherEscaped : Bool}

theorem readsAs_first (c : Char) (rest : List Char) :
    ReadsAs (c :: rest) (some (Glyph.first c rest).symbol) (Glyph.first c rest).width
      (Glyph.first c rest).escaped := by
  unfold Glyph.first
  split
  · rename_i hbackslash
    subst hbackslash
    cases hescape : Glyph.escape? rest with
    | none => exact .backslash (Glyph.escape?_eq_none_iff.1 hescape)
    | some glyph =>
        obtain ⟨code, written, behind, hrest, hwritten, rfl⟩ :=
          Glyph.escape?_eq_some_iff.1 hescape
        exact .escape ⟨behind, hrest.symm⟩ hwritten
  · rename_i hplain
    exact .plain hplain rest

theorem ReadsAs.first_eq {c : Char} (h : ReadsAs (c :: rest) unit? width escaped) :
    unit? = some (Glyph.first c rest).symbol ∧ width = (Glyph.first c rest).width ∧
      escaped = (Glyph.first c rest).escaped := by
  cases h with
  | plain hplain =>
      rw [Glyph.first, if_neg hplain]
      exact ⟨rfl, rfl, rfl⟩
  | @escape _ written code hbegins hwritten =>
      obtain ⟨behind, hrest⟩ := hbegins
      have hbackslash : c = '\\' := by
        obtain ⟨more, digits, rfl, -⟩ := hwritten
        exact (List.cons.inj hrest).1.symm
      subst hbackslash
      have hescape : Glyph.escape? rest = some ⟨.ofCode code, written.length, true⟩ :=
        Glyph.escape?_eq_some_iff.2 ⟨code, written, behind, hrest.symm, hwritten, rfl⟩
      rw [Glyph.first, if_pos rfl, hescape]
      exact ⟨rfl, rfl, rfl⟩
  | backslash hnone =>
      rw [Glyph.first, if_pos rfl, Glyph.escape?_eq_none_iff.2 hnone]
      exact ⟨rfl, rfl, rfl⟩

theorem ReadsAs.nil_eq (h : ReadsAs [] unit? width escaped) :
    unit? = none ∧ width = 1 ∧ escaped = false := by
  cases h with
  | past => exact ⟨rfl, rfl, rfl⟩
  | escape hbegins hwritten =>
      have hlength := hwritten.length
      rw [List.prefix_nil.1 hbegins] at hlength
      cases hlength

theorem ReadsAs.unique (h : ReadsAs ahead unit? width escaped)
    (h' : ReadsAs ahead other? otherWidth otherEscaped) :
    unit? = other? ∧ width = otherWidth ∧ escaped = otherEscaped := by
  cases ahead with
  | nil =>
      obtain ⟨rfl, rfl, rfl⟩ := h.nil_eq
      obtain ⟨rfl, rfl, rfl⟩ := h'.nil_eq
      exact ⟨rfl, rfl, rfl⟩
  | cons c rest =>
      obtain ⟨rfl, rfl, rfl⟩ := h.first_eq
      obtain ⟨rfl, rfl, rfl⟩ := h'.first_eq
      exact ⟨rfl, rfl, rfl⟩

end Reader

/-! ## The units read last -/

open Reader (Answer Call ReadsAs)

/-- A unit, none past the end of the text, with where it began and how much it took. -/
structure UnitRead where
  start : Nat
  unit? : Option Symbol
  width : Nat
  deriving DecidableEq, Repr

/-- A position in a text, with the units read last. -/
structure History where
  text : List Char
  tokenStart : Nat
  position : Nat
  /-- The units that can be pushed back, the last one first. -/
  recent : List UnitRead
  /-- Where in the current token escapes were read. -/
  escapes : List Nat
  deriving DecidableEq, Repr

namespace History

def ofText (text : List Char) : History :=
  ⟨text, 0, 0, [], []⟩

/-- How far the current token is read; reads past the end of the text count. -/
def read (history : History) : Nat :=
  history.position - history.tokenStart

def readInText (history : History) : Nat :=
  min history.position history.text.length - history.tokenStart

/-- What a call does, and how it is answered.  A call that is refused leaves the history. -/
inductive Does : History → Call → Except LexFault Answer → History → Prop
  | next {history : History} {unit? : Option Symbol} {width : Nat} {escaped : Bool}
      (h : ReadsAs (history.text.drop history.position) unit? width escaped) :
      Does history .next (.ok (.unit unit?))
        { history with
          position := history.position + width
          recent := (⟨history.position, unit?, width⟩ :: history.recent).take 2
          escapes := history.escapes ++ if escaped then [history.read] else [] }
  | backUp {history : History} {count : Int} {index : Nat} {unit : UnitRead}
      (hcount : count = index + 1) (hdepth : index < 2)
      (h : history.recent[index]? = some unit) :
      Does history (.backUp count) (.ok .done)
        { history with position := unit.start, recent := history.recent.drop (index + 1) }
  | backUp_short {history : History} {count : Int} (hdepth : count = 1 ∨ count = 2)
      (h : (history.recent.length : Int) < count) :
      Does history (.backUp count) (.error (.reader .nothingToBackUp)) history
  | backUp_depth {history : History} {count : Int} (hdepth : ¬(count = 1 ∨ count = 2)) :
      Does history (.backUp count) (.error (.reader (.unsupportedDepth count))) history
  | mark {history : History} : Does history .mark (.ok (.place history.read)) history
  | reset {history : History} {place : Nat} (h : place ≤ history.read) :
      Does history (.reset place) (.ok .done)
        { history with position := history.tokenStart + place, recent := [] }
  | reset_outside {history : History} {place : Int} (h : ¬(0 ≤ place ∧ place ≤ history.read)) :
      Does history (.reset place)
        (.error (.reader (.backUp ((history.read : Int) - place) history.read))) history
  | consume {history : History} {length : Nat} (h : length ≤ history.readInText) :
      Does history (.consume length) (.ok .done)
        { history with
          tokenStart := history.tokenStart + length
          position := history.tokenStart + length
          recent := []
          escapes := [] }
  | consume_outside {history : History} {length : Int}
      (h : ¬(0 ≤ length ∧ length ≤ history.readInText)) :
      Does history (.consume length)
        (.error (.reader (.consume length history.readInText))) history

inductive Runs : History → List Call → List (Except LexFault Answer) → History → Prop
  | nil {history : History} : Runs history [] [] history
  | cons {history after last : History} {call : Call} {calls : List Call}
      {answer : Except LexFault Answer} {answers : List (Except LexFault Answer)}
      (h : Does history call answer after) (hrest : Runs after calls answers last) :
      Runs history (call :: calls) (answer :: answers) last

theorem Does.unique {history after other : History} {call : Call}
    {answer otherAnswer : Except LexFault Answer} (h : history.Does call answer after)
    (h' : history.Does call otherAnswer other) : answer = otherAnswer ∧ after = other := by
  cases h with
  | next hreads =>
      cases h' with
      | next hreads' =>
          obtain ⟨rfl, rfl, rfl⟩ := hreads.unique hreads'
          exact ⟨rfl, rfl⟩
  | @backUp _ index _ hcount hdepth hunit =>
      obtain ⟨hlength, -⟩ := List.getElem?_eq_some_iff.1 hunit
      cases h' with
      | @backUp _ other _ hcount' _ hunit' =>
          obtain rfl : index = other := by omega
          obtain rfl := Option.some.inj (hunit.symm.trans hunit')
          exact ⟨rfl, rfl⟩
      | backUp_short _ hshort => omega
      | backUp_depth hother => omega
  | backUp_short hdepth hshort =>
      cases h' with
      | backUp hcount _ hunit =>
          obtain ⟨hlength, -⟩ := List.getElem?_eq_some_iff.1 hunit
          omega
      | backUp_short => exact ⟨rfl, rfl⟩
      | backUp_depth hother => exact (hother hdepth).elim
  | backUp_depth hother =>
      cases h' with
      | backUp hcount hdepth => omega
      | backUp_short hdepth => exact (hother hdepth).elim
      | backUp_depth => exact ⟨rfl, rfl⟩
  | mark =>
      cases h'
      exact ⟨rfl, rfl⟩
  | reset hplace =>
      generalize hcall : Call.reset _ = call at h'
      cases h' <;> cases hcall
      · exact ⟨rfl, rfl⟩
      · omega
  | reset_outside hplace =>
      cases h' with
      | reset => omega
      | reset_outside => exact ⟨rfl, rfl⟩
  | consume hlength =>
      generalize hcall : Call.consume _ = call at h'
      cases h' <;> cases hcall
      · exact ⟨rfl, rfl⟩
      · omega
  | consume_outside hlength =>
      cases h' with
      | consume => omega
      | consume_outside => exact ⟨rfl, rfl⟩

theorem Runs.unique {history last other : History} {calls : List Call}
    {answers otherAnswers : List (Except LexFault Answer)} (h : history.Runs calls answers last)
    (h' : history.Runs calls otherAnswers other) : answers = otherAnswers ∧ last = other := by
  induction h generalizing otherAnswers other with
  | nil =>
      cases h'
      exact ⟨rfl, rfl⟩
  | cons hdoes _ ih =>
      cases h' with
      | cons hdoes' hrest =>
          obtain ⟨rfl, rfl⟩ := hdoes.unique hdoes'
          obtain ⟨rfl, rfl⟩ := ih hrest
          exact ⟨rfl, rfl⟩

/-- Units read one behind the other up to a place. -/
def Laid (text : List Char) (floor : Nat) : Nat → List UnitRead → Prop
  | _, [] => True
  | stop, unit :: before =>
      floor ≤ unit.start ∧ unit.start + unit.width = stop ∧
        (∃ escaped, ReadsAs (text.drop unit.start) unit.unit? unit.width escaped) ∧
        Laid text floor unit.start before

theorem Laid.take {text : List Char} {floor stop : Nat} {units : List UnitRead}
    (h : Laid text floor stop units) (count : Nat) :
    Laid text floor stop (units.take count) := by
  induction units generalizing stop count with
  | nil =>
      rw [List.take_nil]
      trivial
  | cons unit before ih =>
      cases count with
      | zero => trivial
      | succ count => exact ⟨h.1, h.2.1, h.2.2.1, ih h.2.2.2 count⟩

theorem Laid.reads {text : List Char} {floor stop : Nat} {units : List UnitRead}
    (h : Laid text floor stop units) :
    ∀ unit ∈ units, ∃ escaped, ReadsAs (text.drop unit.start) unit.unit? unit.width escaped := by
  induction units generalizing stop with
  | nil => exact List.forall_mem_nil _
  | cons unit before ih => exact List.forall_mem_cons.2 ⟨h.2.2.1, ih h.2.2.2⟩

/-- The history keeps two units at most, and they end where the reader stands. -/
structure Sound (history : History) : Prop where
  start_le_length : history.tokenStart ≤ history.text.length
  start_le : history.tokenStart ≤ history.position
  few : history.recent.length ≤ 2
  laid : Laid history.text history.tokenStart history.position history.recent

theorem sound_ofText (text : List Char) : (ofText text).Sound :=
  ⟨Nat.zero_le _, Nat.zero_le _, Nat.zero_le _, trivial⟩

end History

namespace Reader

/-- The reader stands where the history does, and remembers how much its units took. -/
structure Tracks (reader : Reader) (history : History) : Prop where
  text_eq : reader.text = history.text
  tokenStart_eq : reader.tokenStart = history.tokenStart
  offset_eq : reader.offset = history.position
  current_eq : reader.current = history.recent.head?.map UnitRead.width
  previous_eq : reader.previous = history.recent[1]?.map UnitRead.width
  escapes_eq : reader.escapeStarts = history.escapes

theorem tracks_ofText (text : List Char) : (ofText text).Tracks (.ofText text) :=
  ⟨rfl, rfl, rfl, rfl, rfl, rfl⟩

variable {reader other : Reader} {history : History}

theorem Tracks.unique (h : reader.Tracks history) (h' : other.Tracks history) :
    reader = other := by
  obtain ⟨text, tokenStart, offset, current, previous, escapeStarts⟩ := reader
  obtain ⟨htext, hstart, hoffset, hcurrent, hprevious, hescapes⟩ := h
  obtain ⟨htext', hstart', hoffset', hcurrent', hprevious', hescapes'⟩ := h'
  dsimp only at *
  subst htext hstart hoffset hcurrent hprevious hescapes
  cases other
  dsimp only at *
  subst htext' hstart' hoffset' hcurrent' hprevious' hescapes'
  rfl

/-! ## Single calls -/

/-- A unit read is the one that the text ahead begins with. -/
theorem readGlyph_reads (reader : Reader) :
    ∃ width escaped, ReadsAs (reader.text.drop reader.offset)
        (reader.readGlyph.1.map Glyph.symbol) width escaped ∧
      reader.readGlyph.2 = { reader with
        offset := reader.offset + width
        current := some width
        previous := reader.current
        escapeStarts := reader.escapeStarts ++
          if escaped then [reader.readLengthPastEnd] else [] } := by
  cases hrest : reader.text.drop reader.offset with
  | nil =>
      refine ⟨1, false, ?_, ?_⟩
      · rw [readGlyph_nil hrest]
        exact .past
      · rw [readGlyph_nil hrest, if_neg Bool.false_ne_true, List.append_nil]
        rfl
  | cons c rest =>
      refine ⟨(Glyph.first c rest).width, (Glyph.first c rest).escaped, ?_, ?_⟩
      · rw [readGlyph_cons hrest]
        exact readsAs_first c rest
      · rw [readGlyph_cons hrest]
        cases (Glyph.first c rest).escaped with
        | true => rfl
        | false =>
            rw [if_neg Bool.false_ne_true, if_neg Bool.false_ne_true, List.append_nil]
            rfl

/-- The call does to the reader what it does to the history. -/
def Follows (reader : Reader) (history : History) (call : Call) : Prop :=
  ∃ after, history.Does call (reader.call call).1 after ∧ (reader.call call).2.Tracks after ∧
    after.Sound

theorem Tracks.read_eq (h : reader.Tracks history) :
    reader.readLengthPastEnd = history.read := by
  unfold readLengthPastEnd History.read
  rw [h.offset_eq, h.tokenStart_eq]

theorem Tracks.readInText_eq (h : reader.Tracks history) :
    reader.readLength = history.readInText := by
  unfold readLength History.readInText
  rw [h.offset_eq, h.tokenStart_eq, h.text_eq]

theorem follows_next (h : reader.Tracks history) (hsound : history.Sound) :
    reader.Follows history .next := by
  have hstart : reader.tokenStart ≤ reader.offset := by
    rw [h.tokenStart_eq, h.offset_eq]
    exact hsound.start_le
  obtain ⟨width, escaped, hreads, hafter⟩ := readGlyph_reads reader
  unfold Follows
  rw [call_next hstart]
  dsimp only
  rw [hafter]
  rw [h.text_eq, h.offset_eq] at hreads
  refine ⟨_, .next hreads, ⟨h.text_eq, h.tokenStart_eq, ?_, ?_, ?_, ?_⟩, ?_⟩
  · rw [h.offset_eq]
  · rfl
  · rw [h.current_eq]
    cases history.recent <;> rfl
  · rw [h.escapes_eq, h.read_eq]
  · have hlaid : History.Laid history.text history.tokenStart (history.position + width)
        (⟨history.position, reader.readGlyph.1.map Glyph.symbol, width⟩ :: history.recent) :=
      ⟨hsound.start_le, rfl, ⟨escaped, hreads⟩, hsound.laid⟩
    exact ⟨hsound.start_le_length, Nat.le_add_right_of_le hsound.start_le,
      List.length_take_le 2 _, hlaid.take 2⟩

theorem backUpChars_of_le {count : Nat} (h : count ≤ reader.readLengthPastEnd) :
    reader.backUpChars count = .ok { reader with offset := reader.offset - count } := by
  unfold backUpChars
  rw [if_neg (by omega), Int.toNat_natCast]

theorem backUpGlyphs_one_eq {width : Nat} (hcurrent : reader.current = some width)
    (hwidth : width ≤ reader.readLengthPastEnd) :
    reader.backUpGlyphs 1 = .ok { reader with
      offset := reader.offset - width, current := reader.previous, previous := none } := by
  unfold backUpGlyphs
  rw [if_pos rfl, hcurrent]
  dsimp only
  rw [backUpChars_of_le hwidth]
  rfl

theorem backUpGlyphs_two_eq {width before : Nat} (hcurrent : reader.current = some width)
    (hprevious : reader.previous = some before)
    (hwidth : width + before ≤ reader.readLengthPastEnd) :
    reader.backUpGlyphs 2 = .ok { reader with
      offset := reader.offset - (width + before), current := none, previous := none } := by
  unfold backUpGlyphs
  rw [if_neg (by decide), if_pos rfl, hcurrent, hprevious]
  dsimp only
  rw [backUpChars_of_le hwidth]
  rfl

theorem backUpGlyphs_one_short (h : reader.current = none) :
    reader.backUpGlyphs 1 = .error .nothingToBackUp := by
  unfold backUpGlyphs
  rw [if_pos rfl, h]

theorem backUpGlyphs_two_short (h : reader.previous = none) :
    reader.backUpGlyphs 2 = .error .nothingToBackUp := by
  unfold backUpGlyphs
  rw [if_neg (by decide), if_pos rfl, h]
  cases reader.current <;> rfl

theorem backUpGlyphs_depth {count : Int} (hdepth : ¬(count = 1 ∨ count = 2)) :
    reader.backUpGlyphs count = .error (.unsupportedDepth count) := by
  unfold backUpGlyphs
  rw [if_neg fun h => hdepth (.inl h), if_neg fun h => hdepth (.inr h)]

/-- A call that is refused goes on with the same reader and the same history. -/
theorem follows_refused {call : Call} {error : ReaderError} (h : reader.Tracks history)
    (hsound : history.Sound) (hcall : reader.call call = (.error (.reader error), reader))
    (hdoes : history.Does call (.error (.reader error)) history) :
    reader.Follows history call := by
  unfold Follows
  rw [hcall]
  exact ⟨history, hdoes, h, hsound⟩

theorem follows_backUp_one (h : reader.Tracks history) (hsound : history.Sound) :
    reader.Follows history (.backUp 1) := by
  have hcurrent := h.current_eq
  have hprevious := h.previous_eq
  have hfew := hsound.few
  have hlaid := hsound.laid
  cases hrecent : history.recent with
  | nil =>
      refine follows_refused h hsound ?_ (.backUp_short (.inl rfl) (by rw [hrecent]; decide))
      rw [hrecent] at hcurrent
      rw [call_backUp, backUpGlyphs_one_short hcurrent]
      rfl
  | cons last others =>
      rw [hrecent] at hcurrent hprevious hfew hlaid
      rw [List.length_cons] at hfew
      obtain ⟨hfloor, hend, -, hothers⟩ := hlaid
      have hwidth : last.width ≤ reader.readLengthPastEnd := by
        rw [h.read_eq, History.read]
        omega
      have hdoes : history.Does (.backUp 1) (.ok .done)
          { history with position := last.start, recent := history.recent.drop 1 } :=
        @History.Does.backUp history 1 0 last rfl (by decide) (by rw [hrecent]; rfl)
      rw [hrecent] at hdoes
      unfold Follows
      rw [call_backUp, backUpGlyphs_one_eq hcurrent hwidth]
      refine ⟨_, hdoes, ⟨h.text_eq, h.tokenStart_eq, ?_, ?_, ?_, h.escapes_eq⟩,
        ⟨hsound.start_le_length, hfloor, Nat.le_of_succ_le hfew, hothers⟩⟩
      · show reader.offset - last.width = last.start
        rw [h.offset_eq]
        omega
      · show reader.previous = others.head?.map UnitRead.width
        rw [hprevious, List.head?_eq_getElem?]
        rfl
      · show none = others[1]?.map UnitRead.width
        rw [List.getElem?_eq_none (by omega)]
        rfl

theorem follows_backUp_two (h : reader.Tracks history) (hsound : history.Sound) :
    reader.Follows history (.backUp 2) := by
  have hcurrent := h.current_eq
  have hprevious := h.previous_eq
  have hfew := hsound.few
  have hlaid := hsound.laid
  by_cases hshort : history.recent.length < 2
  · refine follows_refused h hsound ?_ (.backUp_short (.inr rfl) (by omega))
    rw [List.getElem?_eq_none (by omega)] at hprevious
    rw [call_backUp, backUpGlyphs_two_short hprevious]
    rfl
  · obtain ⟨last, before, hrecent⟩ := List.length_eq_two.1 (Nat.le_antisymm hfew (by omega))
    rw [hrecent] at hcurrent hprevious hlaid
    obtain ⟨-, hend, -, hfloor, hmiddle, -⟩ := hlaid
    have hwidth : last.width + before.width ≤ reader.readLengthPastEnd := by
      rw [h.read_eq, History.read]
      omega
    have hdoes : history.Does (.backUp 2) (.ok .done)
        { history with position := before.start, recent := history.recent.drop 2 } :=
      @History.Does.backUp history 2 1 before rfl (by decide) (by rw [hrecent]; rfl)
    rw [hrecent] at hdoes
    unfold Follows
    rw [call_backUp, backUpGlyphs_two_eq hcurrent hprevious hwidth]
    refine ⟨_, hdoes, ⟨h.text_eq, h.tokenStart_eq, ?_, rfl, rfl, h.escapes_eq⟩,
      ⟨hsound.start_le_length, hfloor, Nat.zero_le _, trivial⟩⟩
    show reader.offset - (last.width + before.width) = before.start
    rw [h.offset_eq]
    omega

theorem follows_backUp (h : reader.Tracks history) (hsound : history.Sound) (count : Int) :
    reader.Follows history (.backUp count) := by
  by_cases hdepth : count = 1 ∨ count = 2
  · rcases hdepth with rfl | rfl
    · exact follows_backUp_one h hsound
    · exact follows_backUp_two h hsound
  · refine follows_refused h hsound ?_ (.backUp_depth hdepth)
    rw [call_backUp, backUpGlyphs_depth hdepth]
    rfl

theorem follows_reset (h : reader.Tracks history) (hsound : history.Sound) (place : Int) :
    reader.Follows history (.reset place) := by
  have hread := h.read_eq
  by_cases hplace : 0 ≤ place ∧ place ≤ history.read
  · obtain ⟨place, rfl⟩ := Int.eq_ofNat_of_zero_le hplace.1
    have hle : place ≤ reader.readLengthPastEnd := by omega
    have hreset : reader.reset place = .ok { reader with
        offset := reader.offset - (reader.readLengthPastEnd - place),
        current := none, previous := none } := by
      unfold Reader.reset
      rw [← Int.ofNat_sub hle, backUpChars_of_le (Nat.sub_le _ _)]
      rfl
    unfold Follows
    rw [call_reset, hreset]
    refine ⟨_, .reset (by omega), ⟨h.text_eq, h.tokenStart_eq, ?_, rfl, rfl, h.escapes_eq⟩,
      ⟨hsound.start_le_length, Nat.le_add_right _ _, Nat.zero_le _, trivial⟩⟩
    show reader.offset - (reader.readLengthPastEnd - place) = history.tokenStart + place
    have hstart := hsound.start_le
    rw [hread, h.offset_eq]
    unfold History.read at *
    omega
  · refine follows_refused h hsound ?_ (.reset_outside hplace)
    rw [call_reset, Reader.reset, backUpChars, hread, if_pos (by omega)]
    rfl

theorem follows_consume (h : reader.Tracks history) (hsound : history.Sound) (length : Int) :
    reader.Follows history (.consume length) := by
  have hread := h.readInText_eq
  by_cases hlength : 0 ≤ length ∧ length ≤ history.readInText
  · obtain ⟨length, rfl⟩ := Int.eq_ofNat_of_zero_le hlength.1
    have hconsume : reader.consume length = .ok { reader with
        tokenStart := reader.tokenStart + length, offset := reader.tokenStart + length,
        current := none, previous := none, escapeStarts := [] } := by
      unfold Reader.consume consumeChars
      rw [if_neg (by omega), Int.toNat_natCast]
      rfl
    unfold Follows
    rw [call_consume, hconsume, h.tokenStart_eq]
    refine ⟨_, .consume (by omega), ⟨h.text_eq, rfl, rfl, rfl, rfl, rfl⟩,
      ⟨?_, Nat.le_refl _, Nat.zero_le _, trivial⟩⟩
    have hstart := hsound.start_le_length
    show history.tokenStart + length ≤ history.text.length
    unfold History.readInText at hlength
    omega
  · refine follows_refused h hsound ?_ (.consume_outside hlength)
    rw [call_consume, Reader.consume, consumeChars, hread, if_pos (by omega)]
    rfl

theorem follows (h : reader.Tracks history) (hsound : history.Sound) :
    ∀ call, reader.Follows history call
  | .next => follows_next h hsound
  | .backUp count => follows_backUp h hsound count
  | .mark => by
      unfold Follows
      rw [call_mark, mark, h.read_eq]
      exact ⟨history, .mark, h, hsound⟩
  | .reset place => follows_reset h hsound place
  | .consume length => follows_consume h hsound length

/-! ## Rows of calls -/

theorem follows_all (h : reader.Tracks history) (hsound : history.Sound) (calls : List Call) :
    ∃ last, history.Runs calls (callAll calls reader).1 last ∧
      (callAll calls reader).2.Tracks last ∧ last.Sound := by
  -- A refused call is a step too, so the row goes on behind it.
  induction calls generalizing reader history with
  | nil => exact ⟨history, .nil, h, hsound⟩
  | cons call calls ih =>
      obtain ⟨after, hdoes, htracks, hafter⟩ := follows h hsound call
      obtain ⟨last, hruns, hlast⟩ := ih htracks hafter
      exact ⟨last, .cons hdoes hruns, hlast⟩

/-- How calls are answered by a reader that remembers the units of a history. -/
structure Remembers (reader : Reader) (history : History) : Prop where
  few : history.recent.length ≤ 2
  refused : ∀ call fault, (reader.call call).1 = .error fault → (reader.call call).2 = reader
  next : ∃ unit? width escaped, ReadsAs (reader.text.drop reader.offset) unit? width escaped ∧
    (reader.call .next).1 = .ok (.unit unit?) ∧
    (reader.call .next).2.offset = reader.offset + width
  /-- A backslash that opens no escape is a unit of its own. -/
  backslash : ∀ rest, reader.text.drop reader.offset = '\\' :: rest →
    (∀ written, written <+: '\\' :: rest → ¬Glyph.IsEscape written) →
      (reader.call .next).1 = .ok (.unit (some (.char '\\'))) ∧
        (reader.call .next).2.offset = reader.offset + 1
  mark : (reader.call .mark).1 = .ok (.place reader.readLengthPastEnd)
  backUp : ∀ count, (reader.call (.backUp count)).1 =
    if ¬(count = 1 ∨ count = 2) then
      .error (.reader (.unsupportedDepth count))
    else if count ≤ history.recent.length then
      .ok .done
    else
      .error (.reader .nothingToBackUp)
  again : ∀ (index : Nat) (unit : UnitRead), history.recent[index]? = some unit →
    (reader.call (.backUp (index + 1))).2.offset = unit.start ∧
      ((reader.call (.backUp (index + 1))).2.call .next).1 = .ok (.unit unit.unit?) ∧
      ((reader.call (.backUp (index + 1))).2.call .next).2.offset = unit.start + unit.width
  reset : ∀ place, (reader.call (.reset place)).1 =
    if 0 ≤ place ∧ place ≤ reader.readLengthPastEnd then
      .ok .done
    else
      .error (.reader (.backUp (reader.readLengthPastEnd - place) reader.readLengthPastEnd))
  consume : ∀ length, (reader.call (.consume length)).1 =
    if 0 ≤ length ∧ length ≤ reader.readLength then
      .ok .done
    else
      .error (.reader (.consume length reader.readLength))

/-- Pushing back goes to where the unit began, and reading on gives it again. -/
theorem reads_again (h : reader.Tracks history) (hsound : history.Sound) {index : Nat}
    {unit : UnitRead} (hunit : history.recent[index]? = some unit) :
    (reader.call (.backUp (index + 1))).2.offset = unit.start ∧
      ((reader.call (.backUp (index + 1))).2.call .next).1 = .ok (.unit unit.unit?) ∧
      ((reader.call (.backUp (index + 1))).2.call .next).2.offset = unit.start + unit.width := by
  obtain ⟨escaped, hreads⟩ := hsound.laid.reads unit (List.mem_of_getElem? hunit)
  obtain ⟨hlength, -⟩ := List.getElem?_eq_some_iff.1 hunit
  have hfew := hsound.few
  obtain ⟨back, hdoes, htracks, hback⟩ := follows h hsound (.backUp (index + 1))
  obtain ⟨again, hnext, hagain, -⟩ := follows htracks hback .next
  generalize (reader.call (.backUp (index + 1))).1 = answer at hdoes
  generalize (reader.call (.backUp (index + 1))).2 = pushed at *
  cases hdoes with
  | @backUp _ other found hcount hdepth hfound =>
      obtain rfl : other = index := by omega
      obtain rfl : found = unit := Option.some.inj (hfound.symm.trans hunit)
      generalize (pushed.call .next).1 = answer at *
      cases hnext with
      | next hreads' =>
          obtain ⟨rfl, rfl, -⟩ := hreads'.unique hreads
          exact ⟨htracks.offset_eq, rfl, hagain.offset_eq⟩
  | backUp_short hdepth hshort => omega
  | backUp_depth hdepth => omega

theorem call_next_reads (h : reader.Tracks history) (hsound : history.Sound) :
    ∃ unit? width escaped, ReadsAs (reader.text.drop reader.offset) unit? width escaped ∧
      (reader.call .next).1 = .ok (.unit unit?) ∧
      (reader.call .next).2.offset = reader.offset + width := by
  obtain ⟨after, hdoes, htracks, -⟩ := follows h hsound .next
  rw [h.text_eq, h.offset_eq]
  generalize (reader.call .next).1 = answer at *
  cases hdoes with
  | next hreads => exact ⟨_, _, _, hreads, rfl, htracks.offset_eq⟩

theorem remembers (h : reader.Tracks history) (hsound : history.Sound) :
    reader.Remembers history where
  few := hsound.few
  refused := by
    intro call fault hfault
    obtain ⟨after, hdoes, htracks, -⟩ := follows h hsound call
    rw [hfault] at hdoes
    cases hdoes <;> exact htracks.unique h
  next := call_next_reads h hsound
  backslash := by
    intro rest hrest hnone
    obtain ⟨unit?, width, escaped, hreads, hunit, hoffset⟩ := call_next_reads h hsound
    rw [hrest] at hreads
    obtain ⟨rfl, rfl, -⟩ := hreads.unique (.backslash hnone)
    exact ⟨hunit, hoffset⟩
  mark := rfl
  backUp := by
    intro count
    obtain ⟨after, hdoes, -⟩ := follows h hsound (.backUp count)
    generalize (reader.call (.backUp count)).1 = answer at hdoes
    cases hdoes with
    | backUp hcount hdepth hunit =>
        obtain ⟨hlength, -⟩ := List.getElem?_eq_some_iff.1 hunit
        rw [if_neg (by omega), if_pos (by omega)]
    | backUp_short hdepth hshort => rw [if_neg (by omega), if_neg (by omega)]
    | backUp_depth hdepth => rw [if_pos hdepth]
  again := fun _ _ => reads_again h hsound
  reset := by
    intro place
    obtain ⟨after, hdoes, -⟩ := follows h hsound (.reset place)
    rw [h.read_eq]
    generalize (reader.call (.reset place)).1 = answer at hdoes
    cases hdoes with
    | reset hplace => rw [if_pos (by omega)]
    | reset_outside hplace => rw [if_neg hplace]
  consume := by
    intro length
    obtain ⟨after, hdoes, -⟩ := follows h hsound (.consume length)
    rw [h.readInText_eq]
    generalize (reader.call (.consume length)).1 = answer at hdoes
    cases hdoes with
    | consume hlength => rw [if_pos (by omega)]
    | consume_outside hlength => rw [if_neg hlength]

/-- After any calls a reader is a position with the units read last: it gives them again when
they are pushed back, and a call that is refused leaves it alone. -/
theorem callAll_remembers (text : List Char) (calls : List Call) :
    ∃ history, (∀ answers last, (History.ofText text).Runs calls answers last ↔
        answers = (callAll calls (.ofText text)).1 ∧ last = history) ∧
      (callAll calls (.ofText text)).2.Tracks history ∧
      (callAll calls (.ofText text)).2.Remembers history := by
  obtain ⟨history, hruns, htracks, hsound⟩ :=
    follows_all (tracks_ofText text) (History.sound_ofText text) calls
  refine ⟨history, fun answers last => ⟨fun hother => hother.unique hruns, ?_⟩, htracks,
    remembers htracks hsound⟩
  rintro ⟨rfl, rfl⟩
  exact hruns

def writtenUnits : List Char :=
  "\\u0062\\u00z".toList

theorem callAll_remembers_writtenUnits :
    ∃ history unit, (callAll [.next, .next, .backUp 3] (.ofText writtenUnits)).2.Tracks history ∧
      history.recent.length = 2 ∧ history.recent[1]? = some unit ∧
      unit.start = 0 ∧ unit.unit? = some (.char 'b') ∧ unit.width = 6 ∧
      ((callAll [.next, .next, .backUp 3] (.ofText writtenUnits)).2.call (.reset 8)).2 =
        (callAll [.next, .next, .backUp 3] (.ofText writtenUnits)).2 := by
  obtain ⟨history, -, htracks, hremembers⟩ :=
    callAll_remembers writtenUnits [.next, .next, .backUp 3]
  have hprevious : (callAll [.next, .next, .backUp 3] (.ofText writtenUnits)).2.previous =
      some 6 := by
    decide +kernel
  rw [htracks.previous_eq] at hprevious
  obtain ⟨unit, hunit, hwidth⟩ := Option.map_eq_some_iff.1 hprevious
  obtain ⟨hlength, -⟩ := List.getElem?_eq_some_iff.1 hunit
  obtain ⟨hstart, hagain, -⟩ := hremembers.again 1 unit hunit
  have hoffset : ((callAll [.next, .next, .backUp 3] (.ofText writtenUnits)).2.call
      (.backUp 2)).2.offset = 0 := by
    decide +kernel
  have hletter : (((callAll [.next, .next, .backUp 3] (.ofText writtenUnits)).2.call
      (.backUp 2)).2.call .next).1 = .ok (.unit (some (.char 'b'))) := by
    decide +kernel
  have hreset : ((callAll [.next, .next, .backUp 3] (.ofText writtenUnits)).2.call
      (.reset 8)).1 = .error (.reader (.backUp (-1) 7)) := by
    decide +kernel
  have hanswer := hagain.symm.trans hletter
  simp only [Except.ok.injEq, Answer.unit.injEq] at hanswer
  exact ⟨history, unit, htracks, by have := hremembers.few; omega, hunit,
    hstart.symm.trans hoffset, hanswer, hwidth, hremembers.refused _ _ hreset⟩

end Reader

end Manifest
