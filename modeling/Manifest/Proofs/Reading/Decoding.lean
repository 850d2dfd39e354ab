import Manifest.Text.Glyph

/-!
# Glyphs cover their text

The glyphs of a text take exactly its characters, and a text that is cut at the
end of a glyph decodes to the glyphs that are left.  Reads past the end of the
text count one character each.
-/

namespace Manifest

namespace Glyph

/-! ## Widths -/

theorem length_hexCode?_le {digits : List Char} {code : Nat} (h : hexCode? digits = some code) :
    4 ≤ digits.length := by
  unfold hexCode? at h
  split at h
  · simp only [List.length_cons]
    omega
  · cases h

theorem width_escape?_le {rest : List Char} {glyph : Glyph} (h : escape? rest = some glyph) :
    glyph.width ≤ rest.length + 1 := by
  unfold escape? at h
  split at h
  · rename_i rest
    cases hcode : hexCode? (rest.dropWhile (· == 'u')) with
    | none => simp [hcode] at h
    | some code =>
        have hdigits := length_hexCode?_le hcode
        have hsplit := congrArg List.length
          (List.takeWhile_append_dropWhile (p := (· == 'u')) (l := rest))
        rw [List.length_append] at hsplit
        simp only [hcode, Option.bind_eq_bind, Option.bind_some, Option.pure_def,
          Option.some.injEq] at h
        subst h
        simp only [List.length_cons]
        omega
  · cases h

theorem le_width_escape? {rest : List Char} {glyph : Glyph} (h : escape? rest = some glyph) :
    6 ≤ glyph.width := by
  unfold escape? at h
  split at h
  · rename_i rest
    cases hcode : hexCode? (rest.dropWhile (· == 'u')) with
    | none => simp [hcode] at h
    | some code =>
        simp only [hcode, Option.bind_eq_bind, Option.bind_some, Option.pure_def,
          Option.some.injEq] at h
        subst h
        exact Nat.le_add_right 6 _
  · cases h

theorem width_first_le (c : Char) (rest : List Char) :
    (first c rest).width ≤ rest.length + 1 := by
  unfold first
  split
  · cases hescape : escape? rest with
    | none => simp
    | some glyph => exact width_escape?_le hescape
  · simp

@[simp]
theorem totalWidth_nil : totalWidth [] = 0 :=
  rfl

@[simp]
theorem totalWidth_cons (glyph : Glyph) (glyphs : List Glyph) :
    totalWidth (glyph :: glyphs) = glyph.width + totalWidth glyphs :=
  rfl

theorem totalWidth_append (left right : List Glyph) :
    totalWidth (left ++ right) = totalWidth left + totalWidth right := by
  induction left with
  | nil => simp
  | cons glyph left ih =>
      simp only [List.cons_append, totalWidth_cons, ih]
      omega

@[simp]
theorem decode_nil : decode [] = [] :=
  rfl

theorem decode_cons_drop (c : Char) (rest : List Char) :
    decode (c :: rest) = first c rest :: decode ((c :: rest).drop (first c rest).width) := by
  have hpos := width_first_pos c rest
  obtain ⟨width, hwidth⟩ : ∃ width, (first c rest).width = width + 1 :=
    ⟨(first c rest).width - 1, by omega⟩
  rw [decode_cons, hwidth]
  simp

/-- What is left of a text after some of its glyphs decodes to the glyphs after those. -/
theorem decode_drop_totalWidth (text : List Char) (count : Nat) :
    decode (text.drop (totalWidth ((decode text).take count))) = (decode text).drop count := by
  induction count generalizing text with
  | zero => simp
  | succ count ih =>
      cases text with
      | nil => simp
      | cons c rest =>
          rw [decode_cons_drop, List.take_succ_cons, List.drop_succ_cons, totalWidth_cons,
            ← List.drop_drop, ih]

theorem totalWidth_decode (text : List Char) : totalWidth (decode text) = text.length := by
  induction hlength : text.length using Nat.strongRecOn generalizing text with
  | ind length ih =>
      cases text with
      | nil => simpa using hlength
      | cons c rest =>
          have hpos := width_first_pos c rest
          have hle := width_first_le c rest
          rw [List.length_cons] at hlength
          have hrest : ((c :: rest).drop (first c rest).width).length =
              length - (first c rest).width := by
            rw [List.length_drop, List.length_cons, hlength]
          rw [decode_cons_drop, totalWidth_cons, ih _ (by omega) _ hrest]
          omega

theorem width_pos_of_mem_decode {text : List Char} {glyph : Glyph} (h : glyph ∈ decode text) :
    0 < glyph.width := by
  induction hlength : text.length using Nat.strongRecOn generalizing text with
  | ind length ih =>
      cases text with
      | nil => simp at h
      | cons c rest =>
          have hpos := width_first_pos c rest
          rw [decode_cons_drop, List.mem_cons] at h
          rcases h with rfl | h
          · exact hpos
          · refine ih _ ?_ h rfl
            rw [List.length_drop, List.length_cons, ← hlength, List.length_cons]
            omega

theorem length_le_totalWidth {glyphs : List Glyph} (h : ∀ glyph ∈ glyphs, 0 < glyph.width) :
    glyphs.length ≤ totalWidth glyphs := by
  induction glyphs with
  | nil => simp
  | cons glyph glyphs ih =>
      have hhead := h glyph (by simp)
      have htail := ih fun other hother => h other (by simp [hother])
      rw [List.length_cons, totalWidth_cons]
      omega

theorem length_decode_le (text : List Char) : (decode text).length ≤ text.length := by
  rw [← totalWidth_decode text]
  exact length_le_totalWidth fun glyph => width_pos_of_mem_decode

/-- Glyphs that begin a text are the fewer, the less of it they spell. -/
theorem prefix_of_totalWidth_le {text : List Char} {left other : List Glyph}
    (hleft : left <+: decode text) (hother : other <+: decode text)
    (hwidth : totalWidth left ≤ totalWidth other) : left <+: other := by
  rcases List.prefix_or_prefix_of_prefix hleft hother with hbegins | ⟨more, rfl⟩
  · exact hbegins
  · rw [totalWidth_append] at hwidth
    have hmore := @length_le_totalWidth more fun glyph hglyph =>
      width_pos_of_mem_decode (hleft.subset (List.mem_append_right other hglyph))
    have hnone : more = [] := List.eq_nil_of_length_eq_zero (by omega)
    exact ⟨[], by simp [hnone]⟩

theorem eq_of_totalWidth {text : List Char} {left other : List Glyph}
    (hleft : left <+: decode text) (hother : other <+: decode text)
    (hwidth : totalWidth left = totalWidth other) : left = other :=
  (prefix_of_totalWidth_le hleft hother (Nat.le_of_eq hwidth)).eq_of_length_le
    (prefix_of_totalWidth_le hother hleft (Nat.le_of_eq hwidth.symm)).length_le

/-! ## Places among the glyphs -/

/-- How many characters a number of reads takes; a read past the end counts one. -/
def reach (glyphs : List Glyph) (count : Nat) : Nat :=
  totalWidth (glyphs.take count) + (count - glyphs.length)

@[simp]
theorem reach_zero (glyphs : List Glyph) : reach glyphs 0 = 0 := by
  simp [reach]

theorem reach_succ_of_some {glyphs : List Glyph} {count : Nat} {glyph : Glyph}
    (h : glyphs[count]? = some glyph) :
    reach glyphs (count + 1) = reach glyphs count + glyph.width := by
  obtain ⟨hlt, -⟩ := List.getElem?_eq_some_iff.1 h
  unfold reach
  rw [List.take_add_one, h, totalWidth_append]
  simp only [Option.toList_some, totalWidth_cons, totalWidth_nil]
  omega

theorem reach_succ_of_none {glyphs : List Glyph} {count : Nat} (h : glyphs[count]? = none) :
    reach glyphs (count + 1) = reach glyphs count + 1 := by
  have hle := List.getElem?_eq_none_iff.1 h
  unfold reach
  rw [List.take_of_length_le (by omega), List.take_of_length_le (by omega)]
  omega

theorem reach_le_succ (glyphs : List Glyph) (count : Nat) :
    reach glyphs count ≤ reach glyphs (count + 1) := by
  cases h : glyphs[count]? with
  | none => rw [reach_succ_of_none h]; omega
  | some glyph => rw [reach_succ_of_some h]; omega

theorem reach_mono (glyphs : List Glyph) {first second : Nat} (h : first ≤ second) :
    reach glyphs first ≤ reach glyphs second := by
  induction second with
  | zero =>
      obtain rfl : first = 0 := by omega
      exact Nat.le_refl _
  | succ second ih =>
      rcases Nat.lt_or_eq_of_le h with hlt | rfl
      · exact Nat.le_trans (ih (by omega)) (reach_le_succ glyphs second)
      · exact Nat.le_refl _

theorem min_reach (glyphs : List Glyph) (count : Nat) :
    min (reach glyphs count) (totalWidth glyphs) = totalWidth (glyphs.take count) := by
  have hsplit := congrArg totalWidth (List.take_append_drop count glyphs)
  rw [totalWidth_append] at hsplit
  unfold reach
  rcases Nat.le_total count glyphs.length with hle | hle
  · omega
  · rw [List.take_of_length_le hle]
    omega

end Glyph

end Manifest
