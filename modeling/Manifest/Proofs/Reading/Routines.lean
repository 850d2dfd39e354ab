import Manifest.Proofs.Reading.Unit

/-!
# The calls of a reader, step by step

A call changes the reader in several steps, and a step that is refused leaves what the steps
before it did.  No call is refused midway: each does the same as the change that is made at once,
or it leaves the reader alone.
-/

namespace Manifest

namespace Reader

/-- A routine that works on a reader step by step.  A refused step ends it, with the reader as
it is by then. -/
abbrev Routine (α : Type) := EStateM LexFault Reader α

namespace Routine

variable {reader after : Reader} {unit? : Option Symbol} {a? : Option Char}

/-- One step that looks before it changes anything. -/
def step (change : Reader → Except ReaderError Reader) : Routine Unit := fun reader =>
  match change reader with
  | .ok after => .ok () after
  | .error error => .error (.reader error) reader

def char : Routine (Option Char) :=
  modifyGet readChar

/-! ## Reading -/

def pastUs : Nat → Routine (Option Char)
  | 0 => throw .endless
  | steps + 1 => do
      let c? ← char
      if c? = some 'u' then pastUs steps else return c?

def raw (start : Nat) : Routine (Option Symbol) := do
  let read := (← get).readLengthPastEnd
  step (·.backUpChars ((read : Int) - start))
  modify fun reader => { reader with current := some 1 }
  return (← char).map Symbol.char

def digits (start : Nat) (a? : Option Char) : Routine (Option Symbol) := do
  let b? ← char
  let c? ← char
  let d? ← char
  match Glyph.hexCode? (a?.toList ++ b?.toList ++ c?.toList ++ d?.toList) with
  | none => raw start
  | some code =>
      modify fun reader => { reader with current := some (reader.readLengthPastEnd - start) }
      modify fun reader => { reader with escapeStarts := reader.escapeStarts ++ [start] }
      return some (Symbol.ofCode code)

def next : Routine (Option Symbol) := do
  modify remember
  let start := (← get).readLengthPastEnd
  let c? ← char
  if c? = some '\\' then
    let u? ← char
    if u? = some 'u' then
      let a? ← pastUs ((← get).text.length + 1)
      digits start a?
    else
      raw start
  else
    modify fun reader => { reader with current := some 1 }
    return c?.map Symbol.char

/-! ## Single steps -/

theorem bind_of_ok {α β : Type} {routine : Routine α} {goesOn : α → Routine β} {value : α}
    (h : routine reader = .ok value after) :
    (routine >>= goesOn) reader = goesOn value after := by
  show EStateM.bind routine goesOn reader = _
  unfold EStateM.bind
  rw [h]

theorem step_of_ok {change : Reader → Except ReaderError Reader}
    (h : change reader = .ok after) : step change reader = .ok () after := by
  unfold step
  rw [h]

theorem step_of_error {change : Reader → Except ReaderError Reader} {error : ReaderError}
    (h : change reader = .error error) : step change reader = .error (.reader error) reader := by
  unfold step
  rw [h]

theorem bind_of_error {α β : Type} {routine : Routine α} {goesOn : α → Routine β}
    {fault : LexFault} (h : routine reader = .error fault after) :
    (routine >>= goesOn) reader = .error fault after := by
  show EStateM.bind routine goesOn reader = _
  unfold EStateM.bind
  rw [h]

theorem char_eq (reader : Reader) :
    char reader = .ok reader.readChar.1 reader.readChar.2 :=
  rfl

theorem modify_eq (change : Reader → Reader) (reader : Reader) :
    (modify change : Routine PUnit) reader = .ok ⟨⟩ (change reader) :=
  rfl

theorem get_eq (reader : Reader) : (get : Routine Reader) reader = .ok reader reader :=
  rfl

/-! ## Units -/

theorem pastUs_of_ok {steps : Nat} (h : readPastUs steps reader = .ok (a?, after)) :
    pastUs steps reader = .ok a? after := by
  induction steps generalizing reader with
  | zero => cases h
  | succ steps ih =>
      unfold readPastUs at h
      unfold pastUs
      rw [bind_of_ok (char_eq reader)]
      dsimp only at h ⊢
      split
      · rename_i hu
        rw [if_pos hu] at h
        exact ih h
      · rename_i hother
        rw [if_neg hother] at h
        cases h
        rfl

theorem raw_of_ok {start : Nat} (h : rereadRaw start reader = .ok (unit?, after)) :
    raw start reader = .ok unit? after := by
  unfold rereadRaw at h
  cases hback : reader.backUpChars ((reader.readLengthPastEnd : Int) - start) with
  | error error =>
      rw [hback] at h
      cases h
  | ok back =>
      rw [hback] at h
      cases h
      show (step (·.backUpChars ((reader.readLengthPastEnd : Int) - start)) >>= _) reader = _
      rw [bind_of_ok (step_of_ok hback)]
      rfl

theorem digits_of_ok {start : Nat} (h : readDigits start a? reader = .ok (unit?, after)) :
    digits start a? reader = .ok unit? after := by
  unfold readDigits at h
  unfold digits
  rw [bind_of_ok (char_eq reader), bind_of_ok (char_eq _), bind_of_ok (char_eq _)]
  dsimp only at h ⊢
  split at h
  · rename_i hcode
    rw [hcode]
    exact raw_of_ok h
  · rename_i code hcode
    rw [hcode]
    cases h
    rfl

theorem next_of_ok (h : readUnit reader = .ok (unit?, after)) :
    next reader = .ok unit? after := by
  unfold readUnit at h
  unfold next
  rw [bind_of_ok (modify_eq remember reader), bind_of_ok (get_eq _), bind_of_ok (char_eq _)]
  dsimp only at h ⊢
  split at h
  · rename_i hbackslash
    rw [if_pos hbackslash, bind_of_ok (char_eq _)]
    split at h
    · rename_i hu
      rw [if_pos hu, bind_of_ok (get_eq _)]
      cases hpast : readPastUs (reader.remember.readChar.2.readChar.2.text.length + 1)
          reader.remember.readChar.2.readChar.2 with
      | error fault =>
          rw [hpast] at h
          cases h
      | ok read =>
          rw [hpast] at h
          rw [bind_of_ok (pastUs_of_ok hpast)]
          exact digits_of_ok h
    · rename_i hother
      rw [if_neg hother]
      exact raw_of_ok h
  · rename_i hother
    rw [if_neg hother]
    cases h
    rfl

/-- A unit that is read step by step is the glyph at the head of the text. -/
theorem next_eq (hstart : reader.tokenStart ≤ reader.offset) :
    next reader = .ok (reader.readGlyph.1.map Glyph.symbol) reader.readGlyph.2 :=
  next_of_ok (readUnit_eq_readGlyph hstart)

/-! ## Pushing back, returning and closing -/

def backUp (count : Int) : Routine Unit := do
  unless count = 1 ∨ count = 2 do
    throw (.reader (.unsupportedDepth count))
  let reader ← get
  if count = 1 then
    match reader.current with
    | none => throw (.reader .nothingToBackUp)
    | some width =>
        step (·.backUpChars width)
        modify fun after => { after with current := after.previous }
        modify fun after => { after with previous := none }
  else
    match reader.current, reader.previous with
    | some width, some before =>
        step (·.backUpChars (width + before : Nat))
        modify fun after => { after with current := none }
        modify fun after => { after with previous := none }
    | _, _ => throw (.reader .nothingToBackUp)

def returnTo (mark : Int) : Routine Unit := do
  let read := (← get).readLengthPastEnd
  step (·.backUpChars ((read : Int) - mark))
  modify fun after => { after with current := none }
  modify fun after => { after with previous := none }

def close (length : Int) : Routine Unit := do
  step (·.consumeChars length)
  modify fun after => { after with current := none }
  modify fun after => { after with previous := none }
  modify fun after => { after with escapeStarts := [] }

/-- Changes that are not refused finish the step before them. -/
theorem step_bind {change : Reader → Except ReaderError Reader} {finish : Unit → Routine Unit}
    (finished : Reader → Reader) (h : ∀ reader, finish () reader = .ok () (finished reader)) :
    (step change >>= finish) = step fun reader => finished <$> change reader := by
  funext reader
  cases hchange : change reader with
  | ok after =>
      have hfinished : finished <$> change reader = .ok (finished after) := by
        rw [hchange]
        rfl
      rw [bind_of_ok (step_of_ok hchange), h, step_of_ok hfinished]
  | error error =>
      have hfinished : finished <$> change reader = .error error := by
        rw [hchange]
        rfl
      rw [bind_of_error (step_of_error hchange), step_of_error hfinished]

theorem returnTo_eq (mark : Int) : returnTo mark = step (·.reset mark) := by
  funext reader
  unfold returnTo
  rw [bind_of_ok (get_eq reader), step_bind forget fun _ => rfl]
  rfl

theorem close_eq (length : Int) : close length = step (·.consume length) := by
  unfold close
  rw [step_bind (fun after => { after.forget with escapeStarts := [] }) fun _ => rfl]
  rfl

theorem step_congr {change other : Reader → Except ReaderError Reader}
    (h : change reader = other reader) : step change reader = step other reader := by
  unfold step
  rw [h]

theorem backUp_eq (count : Int) : backUp count = step (·.backUpGlyphs count) := by
  funext reader
  unfold backUp
  by_cases hdepth : count = 1 ∨ count = 2
  · rw [if_pos hdepth]
    show (bind get _ : Routine Unit) reader = _
    rw [bind_of_ok (get_eq reader)]
    rcases hdepth with rfl | rfl
    · rw [if_pos rfl]
      cases hcurrent : reader.current with
      | none =>
          refine (step_of_error ?_).symm
          unfold backUpGlyphs
          rw [if_pos rfl, hcurrent]
      | some width =>
          dsimp only
          rw [step_bind (fun after =>
            { after with current := after.previous, previous := none }) fun _ => rfl]
          refine step_congr ?_
          unfold backUpGlyphs
          rw [if_pos rfl, hcurrent]
          rfl
    · rw [if_neg (by decide)]
      cases hcurrent : reader.current with
      | none =>
          refine (step_of_error ?_).symm
          unfold backUpGlyphs
          rw [if_neg (by decide), if_pos rfl, hcurrent]
      | some width =>
          cases hprevious : reader.previous with
          | none =>
              refine (step_of_error ?_).symm
              unfold backUpGlyphs
              rw [if_neg (by decide), if_pos rfl, hcurrent, hprevious]
          | some before =>
              dsimp only
              rw [step_bind forget fun _ => rfl]
              refine step_congr ?_
              unfold backUpGlyphs
              rw [if_neg (by decide), if_pos rfl, hcurrent, hprevious]
              rfl
  · rw [if_neg hdepth]
    refine (step_of_error ?_).symm
    unfold backUpGlyphs
    rw [if_neg fun h => hdepth (.inl h), if_neg fun h => hdepth (.inr h)]

end Routine

/-! ## Calls -/

inductive Call where
  | next
  | backUp (count : Int)
  | mark
  | reset (place : Int)
  | consume (length : Int)
  deriving DecidableEq, Repr

inductive Answer where
  | unit (unit? : Option Symbol)
  | place (mark : Nat)
  | done
  deriving DecidableEq, Repr

def Call.perform : Call → Routine Answer
  | .next => return .unit (← Routine.next)
  | .backUp count => do
      Routine.backUp count
      return .done
  | .mark => return .place (← get).mark
  | .reset place => do
      Routine.returnTo place
      return .done
  | .consume length => do
      Routine.close length
      return .done

def call (reader : Reader) (call : Call) : Except LexFault Answer × Reader :=
  match call.perform reader with
  | .ok answer after => (.ok answer, after)
  | .error fault after => (.error fault, after)

def callAll : List Call → Reader → List (Except LexFault Answer) × Reader
  | [], reader => ([], reader)
  | first :: calls, reader =>
      let (answer, after) := reader.call first
      let (answers, last) := callAll calls after
      (answer :: answers, last)

/-- The outcome of a change that is made at once or not at all. -/
def outcome (change : Except ReaderError Reader) (reader : Reader) :
    Except LexFault Answer × Reader :=
  match change with
  | .ok after => (.ok .done, after)
  | .error error => (.error (.reader error), reader)

theorem call_next {reader : Reader} (hstart : reader.tokenStart ≤ reader.offset) :
    reader.call .next =
      (.ok (.unit (reader.readGlyph.1.map Glyph.symbol)), reader.readGlyph.2) := by
  have hnext : Call.perform .next reader =
      .ok (.unit (reader.readGlyph.1.map Glyph.symbol)) reader.readGlyph.2 := by
    rw [Call.perform, Routine.bind_of_ok (Routine.next_eq hstart)]
    rfl
  unfold call
  rw [hnext]

theorem call_mark (reader : Reader) : reader.call .mark = (.ok (.place reader.mark), reader) :=
  rfl

theorem call_step {reader : Reader} (change : Reader → Except ReaderError Reader) {call : Call}
    (h : call.perform = (Routine.step change >>= fun _ => pure .done)) :
    reader.call call = outcome (change reader) reader := by
  unfold Reader.call outcome
  rw [h]
  cases hchange : change reader with
  | ok after =>
      rw [Routine.bind_of_ok (Routine.step_of_ok hchange)]
      rfl
  | error error => rw [Routine.bind_of_error (Routine.step_of_error hchange)]

theorem call_backUp (reader : Reader) (count : Int) :
    reader.call (.backUp count) = outcome (reader.backUpGlyphs count) reader :=
  call_step (·.backUpGlyphs count) (by rw [Call.perform, Routine.backUp_eq])

theorem call_reset (reader : Reader) (mark : Int) :
    reader.call (.reset mark) = outcome (reader.reset mark) reader :=
  call_step (·.reset mark) (by rw [Call.perform, Routine.returnTo_eq])

theorem call_consume (reader : Reader) (length : Int) :
    reader.call (.consume length) = outcome (reader.consume length) reader :=
  call_step (·.consume length) (by rw [Call.perform, Routine.close_eq])

end Reader

end Manifest
