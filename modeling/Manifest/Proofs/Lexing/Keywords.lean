import Manifest.Proofs.Lexing.JoinedWords

/-!
# Keywords of a trie

A trie made of entries holds each of them at the end of its spelling and nothing else, so
a word that is walked in it ends at an entry exactly if the entry spells the word.
-/

namespace Manifest

variable {ε : Type} {c : Char} {word other : List Char} {entry found : KeywordEntry}
  {node after : KeywordTrie}

theorem except_bind_eq_ok {α β : Type} {value : Except ε α} {next : α → Except ε β} {result : β}
    (h : (value >>= next) = .ok result) :
    ∃ middle, value = .ok middle ∧ next middle = .ok result := by
  cases value with
  | error error => cases h
  | ok middle => exact ⟨middle, rfl, h⟩

namespace KeywordBranches

def nodeAt (branches : KeywordBranches) (c : Char) : KeywordTrie :=
  (branches.find? c).getD .empty

theorem find?_alter {branches altered : KeywordBranches}
    {change : KeywordTrie → Except ε KeywordTrie} (h : branches.alter c change = .ok altered) :
    ∃ changed, change (branches.nodeAt c) = .ok changed ∧
      ∀ d, altered.find? d = if d = c then some changed else branches.find? d := by
  induction branches generalizing altered with
  | nil =>
      unfold alter at h
      obtain ⟨changed, hchange, hresult⟩ := except_bind_eq_ok h
      obtain rfl := Except.ok.inj hresult
      exact ⟨changed, hchange, fun d => rfl⟩
  | cons key entry under others _ ih =>
      unfold alter at h
      by_cases hkey : c = key
      · subst hkey
        rw [if_pos rfl] at h
        obtain ⟨changed, hchange, hresult⟩ := except_bind_eq_ok h
        obtain rfl := Except.ok.inj hresult
        refine ⟨changed, ?_, fun d => ?_⟩
        · unfold nodeAt find?
          rw [if_pos rfl]
          exact hchange
        · by_cases hd : d = c <;> simp [find?, hd]
      · rw [if_neg hkey] at h
        obtain ⟨rest, hrest, hresult⟩ := except_bind_eq_ok h
        obtain rfl := Except.ok.inj hresult
        obtain ⟨changed, hchange, hfind⟩ := ih hrest
        refine ⟨changed, ?_, fun d => ?_⟩
        · unfold nodeAt find?
          rw [if_neg hkey]
          exact hchange
        · unfold find?
          rw [hfind]
          by_cases hd : d = key
          · subst hd
            rw [if_pos rfl, if_neg (Ne.symm hkey), if_pos rfl]
          · rw [if_neg hd, if_neg hd]

end KeywordBranches

namespace KeywordTrie

def entryAt? : KeywordTrie → List Char → Option KeywordEntry
  | node, [] => node.entry
  | node, c :: word => (node.step c).bind fun next => next.entryAt? word

theorem entryAt?_empty (word : List Char) : empty.entryAt? word = none := by
  cases word <;> rfl

theorem entryAt?_nodeAt (word : List Char) :
    (node.branches.nodeAt c).entryAt? word = node.entryAt? (c :: word) := by
  unfold KeywordBranches.nodeAt
  rw [entryAt?, step]
  cases node.branches.find? c with
  | none => exact entryAt?_empty word
  | some next => rfl

/-- An entry is put where there was none, and all others stay. -/
theorem entryAt?_insertAt (h : insertAt entry word node = .ok after) :
    node.entryAt? word = none ∧
      ∀ other, after.entryAt? other = if other = word then some entry else node.entryAt? other := by
  induction word generalizing node after with
  | nil =>
      unfold insertAt at h
      cases hnode : node.entry with
      | some held =>
          rw [hnode] at h
          cases h
      | none =>
          rw [hnode] at h
          obtain rfl := Except.ok.inj h
          refine ⟨hnode, fun other => ?_⟩
          cases other with
          | nil => rfl
          | cons c other => rfl
  | cons c word ih =>
      unfold insertAt at h
      obtain ⟨branches, halter, hresult⟩ := except_bind_eq_ok h
      obtain rfl := Except.ok.inj hresult
      obtain ⟨changed, hchange, hfind⟩ := KeywordBranches.find?_alter halter
      obtain ⟨hnone, hchanged⟩ := ih hchange
      rw [entryAt?_nodeAt] at hnone
      refine ⟨hnone, fun other => ?_⟩
      cases other with
      | nil => rfl
      | cons d other =>
          rw [entryAt?, step, hfind]
          by_cases hd : d = c
          · subst hd
            rw [if_pos rfl, Option.bind_some, hchanged, entryAt?_nodeAt]
            simp only [List.cons.injEq, true_and]
          · have hcons : d :: other ≠ c :: word := fun heq => hd (List.cons.inj heq).1
            rw [if_neg hd, if_neg hcons]
            rfl

theorem entryAt?_foldlM {entries : List KeywordEntry} (h : entries.foldlM insert node = .ok after) :
    after.entryAt? word = some found ↔
      node.entryAt? word = some found ∨ found ∈ entries ∧ found.spelling = word := by
  induction entries generalizing node with
  | nil =>
      obtain rfl := Except.ok.inj h
      simp
  | cons entry entries ih =>
      rw [List.foldlM_cons] at h
      obtain ⟨middle, hinsert, hrest⟩ := except_bind_eq_ok h
      obtain ⟨hnone, hmiddle⟩ := entryAt?_insertAt hinsert
      rw [ih hrest, hmiddle, List.mem_cons]
      by_cases hword : word = entry.spelling
      · subst hword
        rw [if_pos rfl, hnone]
        constructor
        · rintro (hfound | ⟨hmem, hspelling⟩)
          · obtain rfl := Option.some.inj hfound
            exact .inr ⟨.inl rfl, rfl⟩
          · exact .inr ⟨.inr hmem, hspelling⟩
        · rintro (hfound | ⟨rfl | hmem, hspelling⟩)
          · cases hfound
          · exact .inl rfl
          · exact .inr ⟨hmem, hspelling⟩
      · rw [if_neg hword]
        constructor
        · rintro (hfound | ⟨hmem, hspelling⟩)
          · exact .inl hfound
          · exact .inr ⟨.inr hmem, hspelling⟩
        · rintro (hfound | ⟨rfl | hmem, hspelling⟩)
          · exact .inl hfound
          · exact (hword hspelling.symm).elim
          · exact .inr ⟨hmem, hspelling⟩

/-- A trie holds the entries that it was made of, each at the end of its spelling. -/
theorem entryAt?_ofEntries {entries : List KeywordEntry} (h : ofEntries entries = .ok after) :
    after.entryAt? word = some found ↔ found ∈ entries ∧ found.spelling = word := by
  rw [entryAt?_foldlM h, entryAt?_empty]
  simp

theorem entryAt?_keywordTrie :
    keywordTrie.entryAt? word = some found ↔ found ∈ keywordEntries ∧ found.spelling = word :=
  entryAt?_ofEntries ofEntries_keywordEntries

end KeywordTrie

/-! ## Rows without halves to join -/

namespace Symbol

variable {symbols rest ahead : List Symbol} {unit : Symbol}

/-- No two neighbours are the halves of one character. -/
def Joined (symbols : List Symbol) : Prop :=
  joinPairs symbols = symbols

theorem joined_joinPairs (symbols : List Symbol) : Joined (joinPairs symbols) := by
  unfold Joined
  induction symbols using joinPairs.induct with
  | case1 bits lowBits rest ih => rw [joinPairs, joinPairs_char, ih]
  | case2 unit rest hnot ih =>
      rw [joinPairs_alone hnot, joinPairs_alone, ih]
      rintro bits lowBits after rfl hafter
      have hhead : (joinPairs rest).head? = some (.low lowBits) := by
        rw [hafter]
        rfl
      rw [head?_joinPairs_of (by simp) (by simp)] at hhead
      obtain ⟨more, hmore⟩ := List.head?_eq_some_iff.1 hhead
      exact hnot bits lowBits more rfl hmore
  | case3 => rfl

theorem not_joined_pair (bits lowBits : Fin 0x400) (rest : List Symbol) :
    ¬ Joined (.high bits :: .low lowBits :: rest) := by
  unfold Joined
  rw [joinPairs]
  intro h
  cases (List.cons.inj h).1

theorem Joined.tail (h : Joined (unit :: rest)) : Joined rest := by
  by_cases hpair : ∃ bits lowBits after, unit = .high bits ∧ rest = .low lowBits :: after
  · rcases hpair with ⟨bits, lowBits, after, rfl, rfl⟩
    exact (not_joined_pair bits lowBits after h).elim
  · unfold Joined at h
    rw [joinPairs_alone fun bits lowBits after hunit hrest =>
      hpair ⟨bits, lowBits, after, hunit, hrest⟩] at h
    exact (List.cons.inj h).2

theorem Joined.drop (h : Joined symbols) (count : Nat) : Joined (symbols.drop count) := by
  induction count generalizing symbols with
  | zero => exact h
  | succ count ih =>
      cases symbols with
      | nil => rfl
      | cons unit rest => exact ih h.tail

theorem Joined.headUnit_cons (h : Joined (unit :: rest)) :
    headUnit (unit :: rest) = (some unit, 1) := by
  unfold headUnit
  split
  · rename_i heq
    rw [heq] at h
    exact (not_joined_pair _ _ _ h).elim
  · rename_i heq
    rw [(List.cons.inj heq).1]
  · contradiction

theorem Joined.goesOn_cons (h : Joined (unit :: rest)) :
    goesOn (unit :: rest) = unit.isIdentifierPart := by
  rw [← isPart_headUnit, h.headUnit_cons]
  rfl

/-! ## Keywords at the head of a row -/

/-- Below a node whose keys go on identifiers, the keyword at the head of a row is the
entry that all the identifier parts there lead to. -/
theorem keyword?_eq_some_iff {node : KeywordTrie} {path : List Char} {entry : KeywordEntry}
    {size : Nat} (hnode : PushBack.SpelledNode path node) (hjoined : Joined ahead) :
    keyword? node ahead = some (entry, size) ↔
      ∃ word, node.entryAt? word = some entry ∧
        ahead.takeWhile isIdentifierPart = word.map .char ∧ word.length = size := by
  induction ahead generalizing node path size with
  | nil =>
      rw [keyword?, Option.map_eq_some_iff]
      constructor
      · rintro ⟨found, hfound, hpair⟩
        obtain ⟨rfl, rfl⟩ := Prod.mk.inj hpair
        exact ⟨[], hfound, rfl, rfl⟩
      · rintro ⟨word, hword, htake, rfl⟩
        obtain rfl := List.map_eq_nil_iff.1 htake.symm
        exact ⟨entry, hword, rfl⟩
  | cons unit rest ih =>
      cases hstep : PushBack.stepBy? node (some unit) with
      | some next =>
          obtain ⟨c, rfl⟩ : ∃ c, unit = .char c := by
            cases unit with
            | char c => exact ⟨c, rfl⟩
            | high bits => cases hstep
            | low bits => cases hstep
          obtain ⟨hpart, hnext⟩ := PushBack.spelled_find? hnode.1 hstep
          have hstep' : node.step c = some next := hstep
          have htake : (Symbol.char c :: rest).takeWhile isIdentifierPart =
              .char c :: rest.takeWhile isIdentifierPart :=
            List.takeWhile_cons_of_pos hpart
          rw [PushBack.keyword?_step rest hstep, Option.map_eq_some_iff, htake]
          constructor
          · rintro ⟨⟨found, count⟩, hfound, hpair⟩
            obtain ⟨rfl, rfl⟩ := Prod.mk.inj hpair
            obtain ⟨word, hword, hrest, rfl⟩ := (ih hnext hjoined.tail).1 hfound
            refine ⟨c :: word, ?_, ?_, rfl⟩
            · rw [KeywordTrie.entryAt?, hstep']
              exact hword
            · rw [hrest]
              rfl
          · rintro ⟨word, hword, hrest, rfl⟩
            obtain ⟨d, word, rfl, hd, hword'⟩ := List.map_eq_cons_iff.1 hrest.symm
            obtain rfl := Symbol.char.inj hd
            rw [KeywordTrie.entryAt?, hstep'] at hword
            exact ⟨(entry, word.length),
              (ih hnext hjoined.tail).2 ⟨word, hword, hword'.symm, rfl⟩, rfl⟩
      | none =>
          have hstop : PushBack.stepBy? node (unit :: rest).head? = none := hstep
          rw [PushBack.keyword?_stop hstop, hjoined.goesOn_cons]
          cases hpart : unit.isIdentifierPart with
          | true =>
              rw [if_pos rfl, List.takeWhile_cons_of_pos hpart]
              refine iff_of_false (by simp) ?_
              rintro ⟨word, hword, hrest, -⟩
              obtain ⟨d, word, rfl, rfl, -⟩ := List.map_eq_cons_iff.1 hrest.symm
              have hnone : node.step d = none := hstep
              rw [KeywordTrie.entryAt?, hnone] at hword
              cases hword
          | false =>
              rw [if_neg Bool.false_ne_true, List.takeWhile_cons_of_neg (by simp [hpart]),
                Option.map_eq_some_iff]
              constructor
              · rintro ⟨found, hfound, hpair⟩
                obtain ⟨rfl, rfl⟩ := Prod.mk.inj hpair
                exact ⟨[], hfound, rfl, rfl⟩
              · rintro ⟨word, hword, htake, rfl⟩
                obtain rfl := List.map_eq_nil_iff.1 htake.symm
                exact ⟨entry, hword, rfl⟩

/-- The keyword at the head of a row is the one that all the identifier parts there spell. -/
theorem keyword?_keywordTrie {entry : KeywordEntry} {size : Nat} (hjoined : Joined ahead) :
    keyword? keywordTrie ahead = some (entry, size) ↔
      entry ∈ keywordEntries ∧ ahead.takeWhile isIdentifierPart = entry.spelling.map .char ∧
        entry.spelling.length = size := by
  have hroot : PushBack.SpelledNode [] keywordTrie := by
    refine ⟨PushBack.spelled_keywordTrie, fun entry hentry => ?_⟩
    have hnone : keywordTrie.entry = none := by decide +kernel
    rw [hnone] at hentry
    cases hentry
  rw [keyword?_eq_some_iff hroot hjoined]
  constructor
  · rintro ⟨word, hword, htake, hsize⟩
    obtain ⟨hmem, rfl⟩ := KeywordTrie.entryAt?_keywordTrie.1 hword
    exact ⟨hmem, htake, hsize⟩
  · rintro ⟨hmem, htake, hsize⟩
    exact ⟨entry.spelling, KeywordTrie.entryAt?_keywordTrie.2 ⟨hmem, rfl⟩, htake, hsize⟩

end Symbol

end Manifest
