import Manifest.Proofs.Reading.Decoding
import Manifest.Text.Reader
import Manifest.Text.TextRange

/-!
# Reading a unit character by character

A unit is read by trying the escape that may begin at a backslash, and by pushing
the characters back when they make none.  Read in that way it is the glyph at the
head of the text, and no step of the reading is refused.
-/

namespace Manifest

/-- Why lexing by push-back would have to give up. -/
inductive LexFault where
  | reader (error : ReaderError)
  | bounds (error : BoundsError)
  /-- A row of operator characters is no operator. -/
  | unknownOperator (spelling : List Char)
  | endless
  deriving DecidableEq, Repr

namespace Reader

def attempt {α : Type} : Except ReaderError α → Except LexFault α
  | .ok value => .ok value
  | .error error => .error (.reader error)

def readPastUs : Nat → Reader → Except LexFault (Option Char × Reader)
  | 0, _ => .error .endless
  | steps + 1, reader =>
      let (c?, reader) := reader.readChar
      if c? = some 'u' then readPastUs steps reader else .ok (c?, reader)

/-- Push back all that was read since `start`, and read one character as it is. -/
def rereadRaw (start : Nat) (reader : Reader) : Except LexFault (Option Symbol × Reader) := do
  let reader ← attempt (reader.backUpChars ((reader.readLengthPastEnd : Int) - start))
  let (c?, reader) := ({ reader with current := some 1 } : Reader).readChar
  return (c?.map Symbol.char, reader)

/-- Read the four digits of an escape whose first one was read as `a?`; the escape began
at `start`. -/
def readDigits (start : Nat) (a? : Option Char) (reader : Reader) :
    Except LexFault (Option Symbol × Reader) :=
  let (b?, reader) := reader.readChar
  let (c?, reader) := reader.readChar
  let (d?, reader) := reader.readChar
  match Glyph.hexCode? (a?.toList ++ b?.toList ++ c?.toList ++ d?.toList) with
  | none => rereadRaw start reader
  | some code =>
      .ok (some (Symbol.ofCode code),
        { reader with
          current := some (reader.readLengthPastEnd - start)
          escapeStarts := reader.escapeStarts ++ [start] })

def remember (reader : Reader) : Reader :=
  { reader with previous := reader.current }

def readUnit (reader : Reader) : Except LexFault (Option Symbol × Reader) := do
  let start := reader.readLengthPastEnd
  let (c?, reader) := reader.remember.readChar
  if c? = some '\\' then
    let (u?, reader) := reader.readChar
    if u? = some 'u' then
      let (a?, reader) ← readPastUs (reader.text.length + 1) reader
      readDigits start a? reader
    else
      rereadRaw start reader
  else
    return (c?.map Symbol.char, { reader with current := some 1 })

def unread (reader : Reader) : Except LexFault Reader :=
  attempt (reader.backUpGlyphs 1)

def returnTo (mark : Nat) (reader : Reader) : Except LexFault Reader :=
  attempt (reader.reset mark)

/-! ## Single characters -/

def skipped (reader : Reader) (count : Nat) : Reader :=
  { reader with offset := reader.offset + count }

theorem readChar_eq {reader : Reader} {rest : List Char}
    (h : reader.text.drop reader.offset = rest) :
    reader.readChar = (rest.head?, reader.skipped 1) := by
  rw [← h]
  rfl

theorem drop_skipped (reader : Reader) {rest : List Char} (count : Nat)
    (h : reader.text.drop reader.offset = rest) :
    (reader.skipped count).text.drop (reader.skipped count).offset = rest.drop count := by
  rw [← h, List.drop_drop]
  rfl

theorem skipped_skipped (reader : Reader) (first second : Nat) :
    (reader.skipped first).skipped second = reader.skipped (first + second) := by
  simp [skipped, Nat.add_assoc]

theorem readPastUs_eq (steps : Nat) {reader : Reader} {rest : List Char}
    (h : reader.text.drop reader.offset = rest) (hsteps : rest.length < steps) :
    readPastUs steps reader =
      .ok ((rest.dropWhile (· == 'u')).head?,
        reader.skipped ((rest.takeWhile (· == 'u')).length + 1)) := by
  induction steps generalizing reader rest with
  | zero => omega
  | succ steps ih =>
      unfold readPastUs
      rw [readChar_eq h]
      cases rest with
      | nil => simp
      | cons c rest =>
          by_cases hc : c = 'u'
          · subst hc
            rw [List.length_cons] at hsteps
            have hnext := ih (drop_skipped _ 1 h) (by simpa using hsteps)
            simp only [List.drop_succ_cons, List.drop_zero, skipped_skipped] at hnext
            simp only [List.head?_cons, if_true, hnext, List.takeWhile_cons,
              List.dropWhile_cons, beq_self_eq_true, List.length_cons]
            rw [Nat.add_comm 1]
          · simp [hc]

/-- Pushing back what was read since `start` succeeds, and gives the character there. -/
theorem rereadRaw_eq {reader : Reader} {rest : List Char} {count : Nat}
    (hstart : reader.tokenStart ≤ reader.offset)
    (h : reader.text.drop reader.offset = rest) :
    rereadRaw reader.readLengthPastEnd (reader.skipped count) =
      .ok (rest.head?.map Symbol.char, { reader.skipped 1 with current := some 1 }) := by
  have hread : (reader.skipped count).readLengthPastEnd = reader.readLengthPastEnd + count := by
    show reader.offset + count - reader.tokenStart = reader.offset - reader.tokenStart + count
    omega
  have hback : (reader.skipped count).backUpChars
      (((reader.skipped count).readLengthPastEnd : Int) - reader.readLengthPastEnd) =
        .ok reader := by
    rw [hread]
    unfold backUpChars
    rw [hread, if_neg (by omega)]
    have hcount : ((reader.readLengthPastEnd + count : Nat) : Int) -
        reader.readLengthPastEnd = count := by omega
    rw [hcount]
    simp [skipped]
  unfold rereadRaw
  rw [hback, ← h]
  rfl

/-! ## Whole units -/

theorem hexCode?_joined (rest : List Char) :
    Glyph.hexCode? (rest.head?.toList ++ (rest.drop 1).head?.toList ++
      (rest.drop 2).head?.toList ++ (rest.drop 3).head?.toList) = Glyph.hexCode? rest := by
  match rest with
  | [] => rfl
  | [_] => rfl
  | [_, _] => rfl
  | [_, _, _] => rfl
  | _ :: _ :: _ :: _ :: _ => rfl

theorem readDigits_eq {reader : Reader} {rest : List Char} {count : Nat}
    (hstart : reader.tokenStart ≤ reader.offset)
    (h : (reader.skipped count).text.drop (reader.skipped count).offset = rest) :
    readDigits reader.readLengthPastEnd rest.head? (reader.skipped (count + 1)) =
      match Glyph.hexCode? rest with
      | none => rereadRaw reader.readLengthPastEnd (reader.skipped (count + 4))
      | some code =>
          .ok (some (Symbol.ofCode code),
            { reader.skipped (count + 4) with
              current := some (count + 4)
              escapeStarts := reader.escapeStarts ++ [reader.readLengthPastEnd] }) := by
  have hread : ∀ extra, (reader.skipped (count + extra)).readChar =
      ((rest.drop extra).head?, reader.skipped (count + (extra + 1))) := by
    intro extra
    have hdrop := drop_skipped _ extra h
    rw [skipped_skipped] at hdrop
    rw [readChar_eq hdrop, skipped_skipped, Nat.add_assoc]
  have hsecond : (reader.skipped (count + 1)).readChar =
      ((rest.drop 1).head?, reader.skipped (count + 2)) := hread 1
  have hthird : (reader.skipped (count + 2)).readChar =
      ((rest.drop 2).head?, reader.skipped (count + 3)) := hread 2
  have hfourth : (reader.skipped (count + 3)).readChar =
      ((rest.drop 3).head?, reader.skipped (count + 4)) := hread 3
  unfold readDigits
  rw [hsecond]
  dsimp only
  rw [hthird]
  dsimp only
  rw [hfourth]
  dsimp only
  rw [hexCode?_joined]
  cases Glyph.hexCode? rest with
  | none => rfl
  | some code =>
      have hwidth : (reader.skipped (count + 4)).readLengthPastEnd -
          reader.readLengthPastEnd = count + 4 := by
        show reader.offset + (count + 4) - reader.tokenStart -
          (reader.offset - reader.tokenStart) = count + 4
        omega
      dsimp only
      rw [hwidth]
      rfl

theorem readGlyph_nil {reader : Reader} (h : reader.text.drop reader.offset = []) :
    reader.readGlyph = (none, { reader.remember.skipped 1 with current := some 1 }) := by
  unfold readGlyph
  rw [h]
  rfl

theorem readGlyph_cons {reader : Reader} {c : Char} {rest : List Char}
    (h : reader.text.drop reader.offset = c :: rest) :
    reader.readGlyph =
      (some (Glyph.first c rest),
        { reader.remember.skipped (Glyph.first c rest).width with
          current := some (Glyph.first c rest).width
          escapeStarts :=
            if (Glyph.first c rest).escaped then
              reader.escapeStarts ++ [reader.readLengthPastEnd]
            else
              reader.escapeStarts }) := by
  unfold readGlyph
  rw [h]
  rfl

theorem escape?_u (more : List Char) :
    Glyph.escape? ('u' :: more) =
      (Glyph.hexCode? (more.dropWhile (· == 'u'))).map fun code =>
        ⟨.ofCode code, 6 + (more.takeWhile (· == 'u')).length, true⟩ := by
  unfold Glyph.escape?
  cases hcode : Glyph.hexCode? (more.dropWhile (· == 'u')) with
  | none => simp [hcode]
  | some code => simp [hcode]

/-- A backslash that opens no escape is read again, as it is. -/
theorem rereadRaw_eq_readGlyph {reader : Reader} {rest : List Char} {count : Nat}
    (hstart : reader.tokenStart ≤ reader.offset)
    (h : reader.text.drop reader.offset = '\\' :: rest) (hescape : Glyph.escape? rest = none) :
    rereadRaw reader.readLengthPastEnd (reader.remember.skipped count) =
      .ok (reader.readGlyph.1.map Glyph.symbol, reader.readGlyph.2) := by
  have hraw : rereadRaw reader.remember.readLengthPastEnd (reader.remember.skipped count) = _ :=
    rereadRaw_eq hstart h
  have hfirst : Glyph.first '\\' rest = ⟨.char '\\', 1, false⟩ := by
    simp [Glyph.first, hescape]
  rw [readGlyph_cons h, hfirst]
  exact hraw

/-- An escape is tried digit by digit; when it fails, the backslash before it is read. -/
theorem readDigits_eq_readGlyph {reader : Reader} {more : List Char}
    (hstart : reader.tokenStart ≤ reader.offset)
    (h : reader.text.drop reader.offset = '\\' :: 'u' :: more) :
    readDigits reader.readLengthPastEnd (more.dropWhile (· == 'u')).head?
        (reader.remember.skipped ((more.takeWhile (· == 'u')).length + 2 + 1)) =
      .ok (reader.readGlyph.1.map Glyph.symbol, reader.readGlyph.2) := by
  have hmore : more.drop (more.takeWhile (· == 'u')).length = more.dropWhile (· == 'u') := by
    conv => lhs; arg 2; rw [← List.takeWhile_append_dropWhile (p := (· == 'u')) (l := more)]
    exact List.drop_left
  have hdigits := drop_skipped reader.remember
    ((more.takeWhile (· == 'u')).length + 2) h
  rw [List.drop_succ_cons, List.drop_succ_cons, hmore] at hdigits
  have hread : readDigits reader.readLengthPastEnd _ (reader.remember.skipped _) = _ :=
    readDigits_eq hstart hdigits
  rw [hread]
  cases hcode : Glyph.hexCode? (more.dropWhile (· == 'u')) with
  | none =>
      have hescape : Glyph.escape? ('u' :: more) = none := by
        rw [escape?_u, hcode]
        rfl
      exact rereadRaw_eq_readGlyph hstart h hescape
  | some code =>
      have hfirst : Glyph.first '\\' ('u' :: more) =
          ⟨.ofCode code, (more.takeWhile (· == 'u')).length + 2 + 4, true⟩ := by
        simp only [Glyph.first, if_true, escape?_u, hcode, Option.map_some, Option.getD_some,
          Glyph.mk.injEq, true_and, and_true]
        omega
      rw [readGlyph_cons h, hfirst]
      rfl

/-- Reading by trial and push-back gives the glyph at the head of the text, and is never
refused a step. -/
theorem readUnit_eq_readGlyph {reader : Reader} (hstart : reader.tokenStart ≤ reader.offset) :
    reader.readUnit = .ok (reader.readGlyph.1.map Glyph.symbol, reader.readGlyph.2) := by
  unfold readUnit
  cases hrest : reader.text.drop reader.offset with
  | nil =>
      have hread : reader.remember.readChar = ([].head?, _) := readChar_eq hrest
      rw [readGlyph_nil hrest, hread]
      rfl
  | cons c rest =>
      have hread : reader.remember.readChar = ((c :: rest).head?, _) := readChar_eq hrest
      rw [hread]
      by_cases hc : c = '\\'
      · subst hc
        have hnext : (reader.remember.skipped 1).readChar =
            (rest.head?, reader.remember.skipped 2) := readChar_eq (drop_skipped _ 1 hrest)
        simp only [List.head?_cons, if_true, hnext]
        by_cases hu : rest.head? = some 'u'
        · obtain ⟨more, rfl⟩ : ∃ more, rest = 'u' :: more := List.head?_eq_some_iff.1 hu
          have hdrop := drop_skipped reader.remember 2 hrest
          have hlength := congrArg List.length hrest
          simp only [List.length_drop, List.length_cons] at hlength
          have hpast := readPastUs_eq (reader.text.length + 1) hdrop
            (by simp only [List.drop_succ_cons, List.drop_zero]; omega)
          rw [skipped_skipped, ← Nat.add_assoc, Nat.add_comm 2] at hpast
          simp only [hu, if_true]
          show (readPastUs (reader.text.length + 1) (reader.remember.skipped 2)).bind _ = _
          rw [hpast]
          exact readDigits_eq_readGlyph hstart hrest
        · have hescape : Glyph.escape? rest = none := by
            cases rest with
            | nil => rfl
            | cons u more =>
                unfold Glyph.escape?
                split
                · rename_i heq
                  cases heq
                  simp at hu
                · rfl
          simp only [hu, if_false]
          exact rereadRaw_eq_readGlyph hstart hrest hescape
      · have hfirst : Glyph.first c rest = ⟨.char c, 1, false⟩ := by
          unfold Glyph.first
          rw [if_neg hc]
        rw [readGlyph_cons hrest, hfirst]
        simp only [List.head?_cons, Option.some.injEq, hc, if_false]
        rfl

end Reader

end Manifest
