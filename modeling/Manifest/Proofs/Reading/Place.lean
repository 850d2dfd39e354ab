import Manifest.Proofs.Reading.Unit

/-!
# Places of a reader in a token

While a token is read, all that matters of a reader is how many glyphs it has read
since the token began.  Reading goes one glyph on, pushing back one glyph back, and
a mark returns to where it was taken; none of these steps is refused.  Reads past
the end of the text count as glyphs, and are left out when the token is closed.
-/

namespace Manifest

@[ext]
structure Site where
  text : List Char
  start : Nat
  start_le : start ≤ text.length

namespace Site

def ofText (text : List Char) : Site :=
  ⟨text, 0, Nat.zero_le text.length⟩

def glyphs (site : Site) : List Glyph :=
  Glyph.decode (site.text.drop site.start)

def symbols (site : Site) : List Symbol :=
  Glyph.symbols site.glyphs

/-- The characters that are left at a site are the width of its glyphs. -/
theorem start_add_totalWidth (site : Site) :
    site.start + Glyph.totalWidth site.glyphs = site.text.length := by
  have hle := site.start_le
  unfold glyphs
  rw [Glyph.totalWidth_decode, List.length_drop]
  omega

theorem totalWidth_take_le (site : Site) (count : Nat) :
    site.start + Glyph.totalWidth (site.glyphs.take count) ≤ site.text.length := by
  rw [← site.start_add_totalWidth, ← Glyph.min_reach]
  omega

def after (site : Site) (count : Nat) : Site :=
  ⟨site.text, site.start + Glyph.totalWidth (site.glyphs.take count),
    site.totalWidth_take_le count⟩

@[simp]
theorem glyphs_after (site : Site) (count : Nat) :
    (site.after count).glyphs = site.glyphs.drop count := by
  unfold after glyphs
  rw [← List.drop_drop, Glyph.decode_drop_totalWidth]

@[simp]
theorem symbols_after (site : Site) (count : Nat) :
    (site.after count).symbols = site.symbols.drop count := by
  unfold symbols Glyph.symbols
  rw [glyphs_after, List.map_drop]

theorem after_after (site : Site) (first second : Nat) :
    (site.after first).after second = site.after (first + second) := by
  have hstart : site.start + Glyph.totalWidth (site.glyphs.take first) +
      Glyph.totalWidth ((site.after first).glyphs.take second) =
        site.start + Glyph.totalWidth (site.glyphs.take (first + second)) := by
    rw [glyphs_after, List.take_add, Glyph.totalWidth_append, Nat.add_assoc]
  exact Site.ext rfl hstart

theorem decode_drop_reach (site : Site) (count : Nat) :
    Glyph.decode (site.text.drop (site.start + Glyph.reach site.glyphs count)) =
      site.glyphs.drop count := by
  have hmin := Glyph.min_reach site.glyphs count
  have hend := site.start_add_totalWidth
  rcases Nat.le_total count site.glyphs.length with hle | hle
  · have hreach : Glyph.reach site.glyphs count =
        Glyph.totalWidth (site.glyphs.take count) := by
      unfold Glyph.reach
      omega
    rw [hreach, ← List.drop_drop]
    exact Glyph.decode_drop_totalWidth _ count
  · rw [List.take_of_length_le hle] at hmin
    rw [List.drop_eq_nil_of_le hle, List.drop_eq_nil_of_le (by omega), Glyph.decode_nil]

end Site

namespace Reader

/-- The reader has read `count` glyphs of the token that begins at a site; `ahead` is what
comes next, and the escapes that it remembers are among those of the site. -/
structure At (site : Site) (count : Nat) (ahead : List Symbol) (reader : Reader) : Prop where
  text_eq : reader.text = site.text
  start_eq : reader.tokenStart = site.start
  offset_eq : reader.offset = site.start + Glyph.reach site.glyphs count
  ahead_eq : site.symbols.drop count = ahead
  escape_sound : ∀ place ∈ reader.escapeStarts, ∃ index glyph,
    site.glyphs[index]? = some glyph ∧ glyph.escaped = true ∧
      place = Glyph.reach site.glyphs index
  escape_complete : ∀ index glyph, index < count → site.glyphs[index]? = some glyph →
    glyph.escaped = true → Glyph.reach site.glyphs index ∈ reader.escapeStarts

variable {site : Site} {count : Nat} {ahead : List Symbol} {reader : Reader}

theorem At.readLengthPastEnd_eq (h : reader.At site count ahead) :
    reader.readLengthPastEnd = Glyph.reach site.glyphs count := by
  unfold readLengthPastEnd
  rw [h.offset_eq, h.start_eq]
  omega

theorem At.mark_eq (h : reader.At site count ahead) :
    reader.mark = Glyph.reach site.glyphs count :=
  h.readLengthPastEnd_eq

/-- Reads past the end are no part of the token. -/
theorem At.readLength_eq (h : reader.At site count ahead) :
    reader.readLength = Glyph.totalWidth (site.glyphs.take count) := by
  have hend := site.start_add_totalWidth
  have hmin := Glyph.min_reach site.glyphs count
  unfold readLength
  rw [h.offset_eq, h.start_eq, h.text_eq]
  omega

theorem At.ahead_head? (h : reader.At site count ahead) :
    ahead.head? = site.glyphs[count]?.map Glyph.symbol := by
  rw [← h.ahead_eq, List.head?_drop]
  exact List.getElem?_map

/-- An earlier place of the same token; what is remembered of later escapes does no harm. -/
theorem At.earlier {earlier : Nat} (h : reader.At site count ahead) (other : Reader)
    (hle : earlier ≤ count) (htext : other.text = reader.text)
    (hstart : other.tokenStart = reader.tokenStart)
    (hoffset : other.offset = site.start + Glyph.reach site.glyphs earlier)
    (hescapes : other.escapeStarts = reader.escapeStarts) :
    other.At site earlier (site.symbols.drop earlier) where
  text_eq := htext.trans h.text_eq
  start_eq := hstart.trans h.start_eq
  offset_eq := hoffset
  ahead_eq := rfl
  escape_sound := by rw [hescapes]; exact h.escape_sound
  escape_complete := by
    rw [hescapes]
    intro index glyph hindex
    exact h.escape_complete index glyph (by omega)

/-! ## Reading on -/

/-- Reading a glyph goes one place on, and remembers how wide the glyph is. -/
theorem At.readGlyph (h : reader.At site count ahead) :
    reader.readGlyph.1 = site.glyphs[count]? ∧
      reader.readGlyph.2.At site (count + 1) ahead.tail ∧
      ∃ width, reader.readGlyph.2.current = some width ∧
        Glyph.reach site.glyphs (count + 1) = Glyph.reach site.glyphs count + width := by
  have hdecode := site.decode_drop_reach count
  rw [← h.offset_eq, ← h.text_eq] at hdecode
  have htail : site.symbols.drop (count + 1) = ahead.tail := by
    rw [← h.ahead_eq, List.tail_drop]
  cases hrest : reader.text.drop reader.offset with
  | nil =>
      rw [hrest, Glyph.decode_nil] at hdecode
      have hnone : site.glyphs[count]? = none := by
        rw [List.getElem?_eq_none_iff]
        exact List.drop_eq_nil_iff.1 hdecode.symm
      have hreach := Glyph.reach_succ_of_none hnone
      rw [readGlyph_nil hrest, hnone]
      refine ⟨rfl, ⟨h.text_eq, h.start_eq, ?_, htail, h.escape_sound, ?_⟩, 1, rfl, hreach⟩
      · show reader.offset + 1 = _
        rw [h.offset_eq, hreach]
        omega
      · intro index glyph hindex hglyph
        rcases Nat.lt_succ_iff_lt_or_eq.1 hindex with hlt | rfl
        · exact h.escape_complete index glyph hlt hglyph
        · simp [hnone] at hglyph
  | cons c rest =>
      rw [hrest, Glyph.decode_cons] at hdecode
      have hsome : site.glyphs[count]? = some (Glyph.first c rest) := by
        rw [← List.head?_drop, ← hdecode]
        rfl
      have hreach := Glyph.reach_succ_of_some hsome
      rw [readGlyph_cons hrest, hsome]
      refine ⟨rfl, ⟨h.text_eq, h.start_eq, ?_, htail, ?_, ?_⟩, _, rfl, hreach⟩
      · show reader.offset + _ = _
        rw [h.offset_eq, hreach]
        omega
      · intro place hplace
        dsimp only at hplace
        split at hplace
        · rename_i hescaped
          rcases List.mem_append.1 hplace with hold | hnew
          · exact h.escape_sound place hold
          · refine ⟨count, _, hsome, hescaped, ?_⟩
            rw [List.mem_singleton.1 hnew, h.readLengthPastEnd_eq]
        · exact h.escape_sound place hplace
      · intro index glyph hindex hglyph hescaped
        dsimp only
        rcases Nat.lt_succ_iff_lt_or_eq.1 hindex with hlt | rfl
        · have hold := h.escape_complete index glyph hlt hglyph hescaped
          split
          · exact List.mem_append_left _ hold
          · exact hold
        · rw [hsome, Option.some.injEq] at hglyph
          subst hglyph
          rw [if_pos hescaped, h.readLengthPastEnd_eq]
          simp

theorem At.read (h : reader.At site count ahead) :
    ∃ after, reader.readUnit = .ok (ahead.head?, after) ∧
      after.At site (count + 1) ahead.tail ∧
      ∃ before, after.unread = .ok before ∧ before.At site count ahead := by
  obtain ⟨hglyph, hafter, width, hcurrent, hreach⟩ := h.readGlyph
  have hstart : reader.tokenStart ≤ reader.offset := by
    rw [h.start_eq, h.offset_eq]
    omega
  refine ⟨reader.readGlyph.2, ?_, hafter, ?_⟩
  · rw [readUnit_eq_readGlyph hstart, hglyph, h.ahead_head?]
  · have hoffset := hafter.offset_eq
    have hpast := hafter.readLengthPastEnd_eq
    have hback : reader.readGlyph.2.backUpChars width =
        .ok { reader.readGlyph.2 with offset := reader.readGlyph.2.offset - width } := by
      unfold backUpChars
      rw [if_neg (by omega)]
      rfl
    refine ⟨{ reader.readGlyph.2 with
      offset := reader.readGlyph.2.offset - width
      current := reader.readGlyph.2.previous
      previous := none }, ?_, ?_⟩
    · unfold unread backUpGlyphs
      rw [if_pos rfl, hcurrent]
      dsimp only
      rw [hback]
      rfl
    · rw [← h.ahead_eq]
      refine hafter.earlier _ (Nat.le_succ count) rfl rfl ?_ rfl
      dsimp only
      omega

theorem At.returnTo {earlier : Nat} (h : reader.At site count ahead) (hle : earlier ≤ count) :
    ∃ after, reader.returnTo (Glyph.reach site.glyphs earlier) = .ok after ∧
      after.At site earlier (site.symbols.drop earlier) := by
  have hpast := h.readLengthPastEnd_eq
  have hmono := Glyph.reach_mono site.glyphs hle
  have hoffset := h.offset_eq
  have hback : reader.backUpChars
      ((reader.readLengthPastEnd : Int) - (Glyph.reach site.glyphs earlier : Nat)) =
        .ok { reader with
          offset := reader.offset -
            (Glyph.reach site.glyphs count - Glyph.reach site.glyphs earlier) } := by
    unfold backUpChars
    rw [if_neg (by omega)]
    congr 3
    omega
  refine ⟨_, ?_, h.earlier (forget { reader with
      offset := reader.offset -
        (Glyph.reach site.glyphs count - Glyph.reach site.glyphs earlier) }) hle rfl rfl ?_ rfl⟩
  · unfold Reader.returnTo reset
    rw [hback]
    rfl
  · show reader.offset - _ = _
    omega

/-! ## Closing the token -/

/-- The token holds an escape just when one of its glyphs is one. -/
theorem At.hasEscapeWithin_eq (h : reader.At site count ahead) :
    reader.hasEscapeWithin (Glyph.totalWidth (site.glyphs.take count) : Nat) =
      (site.glyphs.take count).any Glyph.escaped := by
  have hmin := Glyph.min_reach site.glyphs count
  rw [Bool.eq_iff_iff, hasEscapeWithin, List.any_eq_true, List.any_eq_true]
  constructor
  -- An escape that was read beyond the place is remembered, but it is too far behind.
  · rintro ⟨place, hplace, hlt⟩
    obtain ⟨index, glyph, hglyph, hescaped, rfl⟩ := h.escape_sound place hplace
    have hless : Glyph.reach site.glyphs index < Glyph.reach site.glyphs count := by
      have := of_decide_eq_true hlt
      omega
    have hindex : index < count := by
      apply Nat.lt_of_not_le
      intro hle
      have := Glyph.reach_mono site.glyphs hle
      omega
    refine ⟨glyph, List.mem_of_getElem? (i := index) ?_, hescaped⟩
    rw [List.getElem?_take, if_pos hindex, hglyph]
  · rintro ⟨glyph, hglyph, hescaped⟩
    obtain ⟨index, hindex⟩ := List.getElem?_of_mem hglyph
    have hlt : index < count := by
      obtain ⟨hlt, -⟩ := List.getElem?_eq_some_iff.1 hindex
      rw [List.length_take] at hlt
      omega
    rw [List.getElem?_take, if_pos hlt] at hindex
    have hmem : glyph ∈ site.glyphs := List.mem_of_getElem? hindex
    have hpos : 0 < glyph.width := Glyph.width_pos_of_mem_decode hmem
    have hnext := Glyph.reach_succ_of_some hindex
    have hmono := Glyph.reach_mono site.glyphs (show index + 1 ≤ count from hlt)
    have hinside := Glyph.min_reach site.glyphs (index + 1)
    have hbound : Glyph.reach site.glyphs (index + 1) ≤ Glyph.totalWidth site.glyphs := by
      obtain ⟨hlength, -⟩ := List.getElem?_eq_some_iff.1 hindex
      have hreach : Glyph.reach site.glyphs (index + 1) =
          Glyph.totalWidth (site.glyphs.take (index + 1)) := by
        unfold Glyph.reach
        omega
      omega
    refine ⟨_, h.escape_complete index glyph hlt hindex hescaped, ?_⟩
    apply decide_eq_true
    omega

theorem At.consume (h : reader.At site count ahead) :
    ∃ after, attempt (reader.consume reader.readLength) = .ok after ∧
      after.At (site.after count) 0 (site.after count).symbols := by
  have hconsume : reader.consumeChars reader.readLength =
      .ok { reader with
        tokenStart := reader.tokenStart + reader.readLength
        offset := reader.tokenStart + reader.readLength } := by
    unfold consumeChars
    rw [if_neg (by omega)]
    rfl
  refine ⟨{ forget { reader with
      tokenStart := reader.tokenStart + reader.readLength
      offset := reader.tokenStart + reader.readLength } with escapeStarts := [] }, ?_, ?_⟩
  · unfold Reader.consume
    rw [hconsume]
    rfl
  · refine ⟨h.text_eq, ?_, ?_, rfl, ?_, ?_⟩
    · show reader.tokenStart + reader.readLength = _
      rw [h.start_eq, h.readLength_eq]
      rfl
    · show reader.tokenStart + reader.readLength = _
      rw [h.start_eq, h.readLength_eq, Glyph.reach_zero]
      rfl
    · intro place hplace
      cases hplace
    · intro index glyph hindex
      omega

/-! ## Counting the glyphs of the token -/

/-- The reader has taken `taken` glyphs of the token, and perhaps read past the end. -/
def Took (site : Site) (taken : Nat) (ahead : List Symbol) (reader : Reader) : Prop :=
  ∃ count, reader.At site count ahead ∧ taken = min count site.glyphs.length

theorem At.took (h : reader.At site count ahead) (hle : count ≤ site.glyphs.length) :
    reader.Took site count ahead :=
  ⟨count, h, by omega⟩

theorem length_symbols (site : Site) : site.symbols.length = site.glyphs.length :=
  List.length_map _

theorem At.lt_length {unit : Symbol} {rest : List Symbol}
    (h : reader.At site count (unit :: rest)) : count < site.glyphs.length := by
  apply Nat.lt_of_not_le
  intro hle
  have hahead := h.ahead_eq
  rw [List.drop_eq_nil_of_le (by rw [length_symbols]; exact hle)] at hahead
  cases hahead

theorem At.length_le (h : reader.At site count []) : site.glyphs.length ≤ count := by
  rw [← length_symbols]
  exact List.drop_eq_nil_iff.1 h.ahead_eq

variable {taken : Nat}

theorem Took.read_cons {unit : Symbol} {rest : List Symbol}
    (h : reader.Took site taken (unit :: rest)) :
    ∃ after, reader.readUnit = .ok (some unit, after) ∧ after.Took site (taken + 1) rest ∧
      ∃ before, after.unread = .ok before ∧ before.Took site taken (unit :: rest) := by
  rcases h with ⟨count, hat, rfl⟩
  have hlt := hat.lt_length
  obtain ⟨after, hread, hafter, before, hunread, hbefore⟩ := hat.read
  refine ⟨after, hread, ⟨count + 1, hafter, ?_⟩, before, hunread, count, hbefore, rfl⟩
  omega

theorem Took.read_nil (h : reader.Took site taken []) :
    ∃ after, reader.readUnit = .ok (none, after) ∧ after.Took site taken [] ∧
      ∃ before, after.unread = .ok before ∧ before.Took site taken [] := by
  rcases h with ⟨count, hat, rfl⟩
  have hle := hat.length_le
  obtain ⟨after, hread, hafter, before, hunread, hbefore⟩ := hat.read
  refine ⟨after, hread, ⟨count + 1, hafter, ?_⟩, before, hunread, count, hbefore, rfl⟩
  omega

theorem Took.read (h : reader.Took site taken ahead) :
    ∃ after, reader.readUnit = .ok (ahead.head?, after) ∧
      (∀ unit rest, ahead = unit :: rest → after.Took site (taken + 1) rest) ∧
      ∃ before, after.unread = .ok before ∧ before.Took site taken ahead := by
  cases ahead with
  | nil =>
      obtain ⟨after, hread, -, hback⟩ := h.read_nil
      exact ⟨after, hread, fun _ _ hcons => (List.cons_ne_nil _ _ hcons.symm).elim, hback⟩
  | cons unit rest =>
      obtain ⟨after, hread, hafter, hback⟩ := h.read_cons
      refine ⟨after, hread, fun unit' rest' hcons => ?_, hback⟩
      rw [← (List.cons.inj hcons).2]
      exact hafter

theorem Took.start_eq (h : reader.Took site taken ahead) : reader.tokenStart = site.start := by
  rcases h with ⟨count, hat, -⟩
  exact hat.start_eq

theorem At.length_glyphs_le (h : reader.At site count ahead) :
    site.glyphs.length ≤ reader.text.length := by
  have hdecode := Glyph.length_decode_le (site.text.drop site.start)
  rw [List.length_drop] at hdecode
  rw [h.text_eq]
  unfold Site.glyphs
  omega

theorem Took.length_ahead_le (h : reader.Took site taken ahead) :
    ahead.length ≤ reader.text.length := by
  rcases h with ⟨count, hat, -⟩
  have hlength := hat.length_glyphs_le
  rw [← hat.ahead_eq, List.length_drop, length_symbols]
  omega

theorem take_min_length {α : Type} (items : List α) (count : Nat) :
    items.take (min count items.length) = items.take count := by
  rw [List.take_eq_take_iff]
  omega

theorem Took.readLength_eq (h : reader.Took site taken ahead) :
    reader.readLength = Glyph.totalWidth (site.glyphs.take taken) := by
  rcases h with ⟨count, hat, rfl⟩
  rw [take_min_length, hat.readLength_eq]

theorem Took.hasEscapeWithin_eq (h : reader.Took site taken ahead) :
    reader.hasEscapeWithin (reader.readLength : Nat) =
      (site.glyphs.take taken).any Glyph.escaped := by
  rw [h.readLength_eq]
  rcases h with ⟨count, hat, rfl⟩
  rw [take_min_length, hat.hasEscapeWithin_eq]

theorem Took.consume (h : reader.Took site taken ahead) :
    ∃ after, attempt (reader.consume reader.readLength) = .ok after ∧
      after.At (site.after taken) 0 (site.after taken).symbols := by
  rcases h with ⟨count, hat, rfl⟩
  have hsame : site.after (min count site.glyphs.length) = site.after count := by
    unfold Site.after
    simp only [take_min_length]
  rw [hsame]
  exact hat.consume

theorem at_ofText (text : List Char) :
    (ofText text).At (.ofText text) 0 (Site.ofText text).symbols := by
  refine ⟨rfl, rfl, ?_, rfl, ?_, ?_⟩
  · rw [Glyph.reach_zero]
    rfl
  · intro place hplace
    cases hplace
  · intro index glyph hindex
    omega

end Reader

end Manifest
