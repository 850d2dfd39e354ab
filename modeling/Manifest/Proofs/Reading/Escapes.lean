import Mathlib.Data.List.TakeWhile
import Manifest.Proofs.Reading.Decoding

/-!
# Escapes in the text

An escape is a backslash with one or more `u` and four hexadecimal digits behind it.  A glyph is
an escape exactly if the characters that spell it are one, and a backslash stands for itself
exactly if the text does not go on as an escape.
-/

namespace Manifest

namespace Glyph

variable {code : Nat} {text written rest behind digits more : List Char} {glyph : Glyph}
  {left right glyphs : List Glyph}

/-- The characters are an escape of the code. -/
def Escapes (code : Nat) (written : List Char) : Prop :=
  ∃ more digits, written = '\\' :: 'u' :: (more ++ digits) ∧ (∀ u ∈ more, u = 'u') ∧
    digits.length = 4 ∧ hexCode? digits = some code

def IsEscape (written : List Char) : Prop :=
  ∃ code, Escapes code written

theorem Escapes.length (h : Escapes code written) : 6 ≤ written.length := by
  obtain ⟨more, digits, rfl, -, hdigits, -⟩ := h
  rw [List.length_cons, List.length_cons, List.length_append]
  omega

/-! ## Reading an escape -/

/-- Only four digits are looked at. -/
theorem hexCode?_take (digits : List Char) : hexCode? (digits.take 4) = hexCode? digits := by
  match digits with
  | [] => rfl
  | [_] => rfl
  | [_, _] => rfl
  | [_, _, _] => rfl
  | _ :: _ :: _ :: _ :: _ => rfl

theorem hexCode?_append (hdigits : digits.length = 4) (behind : List Char) :
    hexCode? (digits ++ behind) = hexCode? digits := by
  rw [← hexCode?_take, ← hdigits, List.take_left]

/-- No digit is a further `u`. -/
theorem head?_of_hexCode? (h : hexCode? digits = some code) : digits.head? ≠ some 'u' := by
  intro hhead
  obtain ⟨rest, rfl⟩ := List.head?_eq_some_iff.1 hhead
  match rest with
  | [] => cases h
  | [_] => cases h
  | [_, _] => cases h
  | _ :: _ :: _ :: _ => cases h

/-- The `u` of an escape end where its digits begin. -/
theorem split_us (hmore : ∀ u ∈ more, u = 'u') (hdigits : digits.head? ≠ some 'u') :
    (more ++ digits).takeWhile (· == 'u') = more ∧
      (more ++ digits).dropWhile (· == 'u') = digits := by
  have hall : ∀ u ∈ more, (u == 'u') = true := fun u hu => beq_iff_eq.2 (hmore u hu)
  have hstop : digits.takeWhile (· == 'u') = [] ∧ digits.dropWhile (· == 'u') = digits := by
    cases digits with
    | nil => exact ⟨rfl, rfl⟩
    | cons digit digits =>
        have hdigit : ¬(digit == 'u') = true := fun hdigit =>
          hdigits (congrArg some (eq_of_beq hdigit))
        exact ⟨List.takeWhile_cons_of_neg hdigit, List.dropWhile_cons_of_neg hdigit⟩
  constructor
  · rw [List.takeWhile_append_of_pos hall, hstop.1, List.append_nil]
  · rw [List.dropWhile_append_of_pos hall, hstop.2]

/-- The reader finds the escape that the characters begin with, and no other. -/
theorem escape?_eq_some_iff :
    escape? rest = some glyph ↔ ∃ code written behind, '\\' :: rest = written ++ behind ∧
      Escapes code written ∧ glyph = ⟨.ofCode code, written.length, true⟩ := by
  constructor
  · intro h
    unfold escape? at h
    split at h
    · rename_i rest
      obtain ⟨code, hcode, hglyph⟩ := Option.bind_eq_some_iff.1 h
      have hdigits := length_hexCode?_le hcode
      have hlength : ((rest.dropWhile (· == 'u')).take 4).length = 4 := by
        rw [List.length_take]
        omega
      refine ⟨code, '\\' :: 'u' :: (rest.takeWhile (· == 'u') ++
          (rest.dropWhile (· == 'u')).take 4), (rest.dropWhile (· == 'u')).drop 4, ?_,
        ⟨_, _, rfl, fun u hu => ?_, hlength, ?_⟩, ?_⟩
      · rw [List.cons_append, List.cons_append, List.append_assoc, List.take_append_drop,
          List.takeWhile_append_dropWhile]
      · have htest : (u == 'u') = true :=
          List.mem_takeWhile_imp (p := fun u => u == 'u') hu
        exact eq_of_beq htest
      · rw [hexCode?_take]
        exact hcode
      · rw [← Option.some.inj hglyph, List.length_cons, List.length_cons, List.length_append,
          hlength, Nat.add_comm]
    · cases h
  · rintro ⟨code, written, behind, hrest, ⟨more, digits, rfl, hmore, hdigits, hcode⟩, rfl⟩
    obtain rfl := (List.cons.inj hrest).2
    have hbehind : hexCode? (digits ++ behind) = some code := by
      rw [hexCode?_append hdigits, hcode]
    obtain ⟨htake, hdrop⟩ := split_us hmore (head?_of_hexCode? hbehind)
    show escape? ('u' :: (more ++ digits ++ behind)) = _
    simp only [escape?, List.append_assoc, htake, hdrop, hbehind, Option.bind_eq_bind,
      Option.bind_some, Option.pure_def, List.length_cons, List.length_append, hdigits]
    rw [Nat.add_comm]

theorem escape?_eq_none_iff :
    escape? rest = none ↔ ∀ written, written <+: '\\' :: rest → ¬IsEscape written := by
  rw [Option.eq_none_iff_forall_ne_some]
  constructor
  · rintro hnone written ⟨behind, hrest⟩ ⟨code, hwritten⟩
    exact hnone _ (escape?_eq_some_iff.2 ⟨code, written, behind, hrest.symm, hwritten, rfl⟩)
  · intro hnone glyph hglyph
    obtain ⟨code, written, behind, hrest, hwritten, -⟩ := escape?_eq_some_iff.1 hglyph
    exact hnone written ⟨behind, hrest.symm⟩ ⟨code, hwritten⟩

/-! ## Glyphs that are escapes -/

theorem escaped_first_iff (c : Char) (rest : List Char) :
    (first c rest).escaped = true ↔ IsEscape ((c :: rest).take (first c rest).width) := by
  have hplain : ∀ glyph : Glyph, glyph.escaped = false → glyph.width = 1 →
      (glyph.escaped = true ↔ IsEscape ((c :: rest).take glyph.width)) := by
    intro glyph hescaped hwidth
    refine ⟨fun htrue => absurd htrue (by simp [hescaped]), ?_⟩
    rintro ⟨code, hwritten⟩
    have hlength := hwritten.length
    rw [hwidth, List.length_take] at hlength
    omega
  unfold first
  split
  · rename_i hbackslash
    cases hescape : escape? rest with
    | none => exact hplain _ rfl rfl
    | some glyph =>
        obtain ⟨code, written, behind, hrest, hwritten, rfl⟩ := escape?_eq_some_iff.1 hescape
        rw [hbackslash, hrest, Option.getD_some]
        exact ⟨fun _ => ⟨code, by rwa [List.take_left]⟩, fun _ => rfl⟩
  · exact hplain _ rfl rfl

/-- Behind the first glyphs of a text there are the others. -/
theorem decode_behind (h : decode text = left ++ right) :
    decode (text.drop (totalWidth left)) = right := by
  have hdrop := decode_drop_totalWidth text left.length
  rwa [h, List.take_left, List.drop_left] at hdrop

/-- The glyphs that are escapes are those that the text spells as one. -/
theorem escaped_iff (h : decode text = left ++ glyph :: right) :
    glyph.escaped = true ↔ IsEscape ((text.drop (totalWidth left)).take glyph.width) := by
  have hbehind := decode_behind h
  cases hrest : text.drop (totalWidth left) with
  | nil =>
      rw [hrest] at hbehind
      cases hbehind
  | cons c rest =>
      rw [hrest, decode_cons_drop] at hbehind
      rw [← (List.cons.inj hbehind).1]
      exact escaped_first_iff c rest

end Glyph

end Manifest
