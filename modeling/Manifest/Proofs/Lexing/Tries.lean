import Manifest.Proofs.Lexing.Keywords

/-!
# Tries of entries

A trie is made of a row of entries exactly if no spelling comes twice; otherwise the first entry
that repeats an earlier spelling is named.  The words that lead to a node are then the beginnings
of the spellings, and a word is walked as far as it begins one.
-/

namespace Manifest

variable {ε : Type} {c : Char} {word other : List Char} {entry : KeywordEntry}
  {entries : List KeywordEntry} {node after : KeywordTrie}

theorem except_bind_eq_error_iff {α β : Type} {value : Except ε α} {make : α → β} {error : ε} :
    (value >>= fun result => pure (make result)) = .error error ↔ value = .error error := by
  cases value with
  | error held => exact ⟨fun h => congrArg _ (Except.error.inj h), fun h => by rw [h]; rfl⟩
  | ok result => exact iff_of_false nofun nofun

namespace KeywordBranches

variable {branches altered : KeywordBranches} {change : KeywordTrie → Except ε KeywordTrie}

theorem alter_eq_error_iff {error : ε} :
    branches.alter c change = .error error ↔ change (branches.nodeAt c) = .error error := by
  induction branches with
  | nil =>
      rw [alter, except_bind_eq_error_iff]
      rfl
  | cons key entry under others _ ih =>
      by_cases hkey : c = key
      · rw [alter, if_pos hkey, except_bind_eq_error_iff, nodeAt, find?, if_pos hkey,
          Option.getD_some]
      · rw [alter, if_neg hkey, except_bind_eq_error_iff, ih, nodeAt, nodeAt, find?, if_neg hkey]

theorem mem_keys_iff : c ∈ branches.keys ↔ (branches.find? c).isSome = true := by
  induction branches with
  | nil => simp [keys, find?]
  | cons key entry under others _ ih =>
      by_cases hkey : c = key
      · simp [keys, find?, hkey]
      · simp [keys, find?, hkey, ih]

def Distinct : KeywordBranches → Prop
  | .nil => True
  | .cons key _ under others => key ∉ others.keys ∧ under.Distinct ∧ others.Distinct

theorem Distinct.nodup_keys (h : branches.Distinct) : branches.keys.Nodup := by
  induction branches with
  | nil => exact List.nodup_nil
  | cons key entry under others _ ih => exact List.nodup_cons.2 ⟨h.1, ih h.2.2⟩

theorem Distinct.find? (h : branches.Distinct) (hfound : branches.find? c = some node) :
    node.branches.Distinct := by
  induction branches with
  | nil => cases hfound
  | cons key entry under others _ ih =>
      by_cases hkey : c = key
      · rw [KeywordBranches.find?, if_pos hkey] at hfound
        obtain rfl := Option.some.inj hfound
        exact h.2.1
      · rw [KeywordBranches.find?, if_neg hkey] at hfound
        exact ih h.2.2 hfound

theorem Distinct.nodeAt (h : branches.Distinct) (c : Char) :
    (branches.nodeAt c).branches.Distinct := by
  unfold KeywordBranches.nodeAt
  cases hfound : branches.find? c with
  | none => trivial
  | some node => exact h.find? hfound

theorem Distinct.alter (h : branches.Distinct) (halter : branches.alter c change = .ok altered)
    (hchange : ∀ changed, change (branches.nodeAt c) = .ok changed → changed.branches.Distinct) :
    altered.Distinct := by
  induction branches generalizing altered with
  | nil =>
      rw [KeywordBranches.alter] at halter
      obtain ⟨changed, hchanged, hresult⟩ := except_bind_eq_ok halter
      obtain rfl := Except.ok.inj hresult
      exact ⟨List.not_mem_nil, hchange changed hchanged, trivial⟩
  | cons key entry under others _ ih =>
      obtain ⟨hkeys, hunder, hothers⟩ := h
      by_cases hkey : c = key
      · rw [KeywordBranches.alter, if_pos hkey] at halter
        rw [KeywordBranches.nodeAt, KeywordBranches.find?, if_pos hkey, Option.getD_some] at hchange
        obtain ⟨changed, hchanged, hresult⟩ := except_bind_eq_ok halter
        obtain rfl := Except.ok.inj hresult
        exact ⟨hkeys, hchange changed hchanged, hothers⟩
      · rw [KeywordBranches.alter, if_neg hkey] at halter
        rw [KeywordBranches.nodeAt, KeywordBranches.find?, if_neg hkey] at hchange
        obtain ⟨rest, hrest, hresult⟩ := except_bind_eq_ok halter
        obtain rfl := Except.ok.inj hresult
        -- The altered row has the keys of the old one, and perhaps `c`.
        obtain ⟨changed, -, hfind⟩ := find?_alter hrest
        have hmem : key ∉ rest.keys := by
          rw [mem_keys_iff, hfind, if_neg (Ne.symm hkey), ← mem_keys_iff]
          exact hkeys
        exact ⟨hmem, hunder, ih hothers hrest hchange⟩

end KeywordBranches

namespace KeywordTrie

/-- The node that a word leads to, if each of its characters leads on. -/
def nodeAt? : KeywordTrie → List Char → Option KeywordTrie
  | node, [] => some node
  | node, c :: word => (node.step c).bind fun next => next.nodeAt? word

theorem entryAt?_eq (node : KeywordTrie) (word : List Char) :
    node.entryAt? word = (node.nodeAt? word).bind KeywordTrie.entry := by
  induction word generalizing node with
  | nil => rfl
  | cons c word ih =>
      rw [entryAt?, nodeAt?]
      cases node.step c with
      | none => rfl
      | some next => exact ih next

theorem nodeAt?_append (node : KeywordTrie) (word other : List Char) :
    node.nodeAt? (word ++ other) =
      (node.nodeAt? word).bind fun reached => reached.nodeAt? other := by
  induction word generalizing node with
  | nil => rfl
  | cons c word ih =>
      rw [List.cons_append, nodeAt?, nodeAt?]
      cases node.step c with
      | none => rfl
      | some next => exact ih next

/-- The keys of a node are the characters that lead on from it. -/
theorem mem_keys_iff_nodeAt? (hnode : node.nodeAt? word = some after) :
    c ∈ after.branches.keys ↔ (node.nodeAt? (word ++ [c])).isSome = true := by
  have hstep : node.nodeAt? (word ++ [c]) = after.branches.find? c := by
    rw [nodeAt?_append, hnode, Option.bind_some, nodeAt?, step]
    cases after.branches.find? c <;> rfl
  rw [hstep, KeywordBranches.mem_keys_iff]

theorem nodeAt?_empty (word : List Char) : (empty.nodeAt? word).isSome = true ↔ word = [] := by
  cases word with
  | nil => simp [nodeAt?]
  | cons c word => simp [nodeAt?, step, empty, KeywordBranches.find?]

theorem distinct_nodeAt? (h : node.branches.Distinct) (hnode : node.nodeAt? word = some after) :
    after.branches.Distinct := by
  induction word generalizing node with
  | nil => exact Option.some.inj hnode ▸ h
  | cons c word ih =>
      obtain ⟨next, hstep, hnext⟩ := Option.bind_eq_some_iff.1 hnode
      exact ih (h.find? hstep) hnext

/-! ## Putting an entry in -/

/-- An entry finds no place exactly where there is one already. -/
theorem insertAt_eq_error_iff {duplicate : DuplicateSpelling} :
    insertAt entry word node = .error duplicate ↔
      (node.entryAt? word).isSome = true ∧ duplicate = ⟨entry.spelling⟩ := by
  induction word generalizing node with
  | nil =>
      rw [insertAt, entryAt?]
      cases node.entry with
      | none => simp
      | some held => simp [eq_comm]
  | cons c word ih =>
      rw [insertAt, except_bind_eq_error_iff, KeywordBranches.alter_eq_error_iff, ih,
        entryAt?_nodeAt]

/-- The words that lead to a node are afterwards also the beginnings of the word put in. -/
theorem nodeAt?_insertAt (h : insertAt entry word node = .ok after) (other : List Char) :
    (after.nodeAt? other).isSome = true ↔
      (node.nodeAt? other).isSome = true ∨ other <+: word := by
  induction word generalizing node after other with
  | nil =>
      rw [insertAt] at h
      cases hnode : node.entry with
      | some held =>
          rw [hnode] at h
          cases h
      | none =>
          rw [hnode] at h
          obtain rfl := Except.ok.inj h
          cases other with
          | nil => simp [nodeAt?]
          | cons d other => simp [nodeAt?, step]
  | cons c word ih =>
      rw [insertAt] at h
      obtain ⟨branches, halter, hresult⟩ := except_bind_eq_ok h
      obtain rfl := Except.ok.inj hresult
      obtain ⟨changed, hchange, hfind⟩ := KeywordBranches.find?_alter halter
      cases other with
      | nil => simp [nodeAt?]
      | cons d other =>
          rw [nodeAt?, nodeAt?, step, hfind, List.cons_prefix_cons]
          by_cases hd : d = c
          · subst hd
            rw [if_pos rfl, Option.bind_some, ih hchange, KeywordBranches.nodeAt, step]
            cases node.branches.find? d with
            | some next => simp
            | none =>
                simp only [Option.getD_none, nodeAt?_empty, Option.bind_none, true_and]
                simpa using fun hother : other = [] => hother ▸ List.nil_prefix
          · simp [hd, step]

theorem distinct_insertAt (h : insertAt entry word node = .ok after)
    (hnode : node.branches.Distinct) : after.branches.Distinct := by
  induction word generalizing node after with
  | nil =>
      rw [insertAt] at h
      cases hentry : node.entry with
      | some held =>
          rw [hentry] at h
          cases h
      | none =>
          rw [hentry] at h
          obtain rfl := Except.ok.inj h
          exact hnode
  | cons c word ih =>
      rw [insertAt] at h
      obtain ⟨branches, halter, hresult⟩ := except_bind_eq_ok h
      obtain rfl := Except.ok.inj hresult
      exact hnode.alter halter fun changed hchanged => ih hchanged (hnode.nodeAt c)

/-! ## Tries of rows of entries -/

/-- What a trie made of entries holds: a node for each beginning of a spelling, and each entry
at the end of its own. -/
structure Holds (entries : List KeywordEntry) (trie : KeywordTrie) : Prop where
  reaches : ∀ word, (trie.nodeAt? word).isSome = true ↔
    word = [] ∨ ∃ entry ∈ entries, word <+: entry.spelling
  entryAt : ∀ word found, trie.entryAt? word = some found ↔
    found ∈ entries ∧ found.spelling = word
  distinct : trie.branches.Distinct

theorem holds_empty : Holds [] empty where
  reaches := fun word => by simp [nodeAt?_empty]
  entryAt := fun word found => by simp [entryAt?_empty]
  distinct := trivial

theorem Holds.insert {trie : KeywordTrie} (h : Holds entries trie)
    (hinsert : trie.insert entry = .ok after) : Holds (entries ++ [entry]) after where
  reaches := fun word => by
    rw [nodeAt?_insertAt hinsert, h.reaches]
    simp only [List.mem_append, List.mem_singleton, or_assoc, or_and_right, exists_or,
      exists_eq_left]
  entryAt := fun word found => by
    obtain ⟨hnone, hafter⟩ := entryAt?_insertAt hinsert
    rw [hafter]
    by_cases hword : word = entry.spelling
    · have hfresh : ¬ (found ∈ entries ∧ found.spelling = entry.spelling) := by
        rw [← h.entryAt, hnone]
        nofun
      subst hword
      simp only [if_pos, Option.some.injEq, List.mem_append, List.mem_singleton, or_and_right,
        hfresh, false_or]
      exact ⟨fun heq => ⟨heq.symm, heq ▸ rfl⟩, fun hfound => hfound.1.symm⟩
    · rw [if_neg hword, h.entryAt]
      simp only [List.mem_append, List.mem_singleton, or_and_right]
      refine ⟨Or.inl, fun hfound => hfound.resolve_right ?_⟩
      rintro ⟨rfl, hspelling⟩
      exact hword hspelling.symm
  distinct := distinct_insertAt hinsert h.distinct

/-- Putting in an entry fails exactly if its spelling is there. -/
theorem Holds.insert_eq_error_iff {trie : KeywordTrie} {duplicate : DuplicateSpelling}
    (h : Holds entries trie) :
    trie.insert entry = .error duplicate ↔
      entry.spelling ∈ entries.map KeywordEntry.spelling ∧ duplicate = ⟨entry.spelling⟩ := by
  have hheld : (trie.entryAt? entry.spelling).isSome = true ↔
      entry.spelling ∈ entries.map KeywordEntry.spelling := by
    simp only [Option.isSome_iff_exists, h.entryAt, List.mem_map]
  rw [KeywordTrie.insert, insertAt_eq_error_iff, hheld]

/-- The entry is the first that repeats an earlier spelling. -/
def FirstRepeated (entries : List KeywordEntry) (entry : KeywordEntry) : Prop :=
  ∃ earlier later, entries = earlier ++ entry :: later ∧
    (earlier.map KeywordEntry.spelling).Nodup ∧
    entry.spelling ∈ earlier.map KeywordEntry.spelling

theorem FirstRepeated.not_nodup (h : FirstRepeated entries entry) :
    ¬ (entries.map KeywordEntry.spelling).Nodup := by
  obtain ⟨earlier, later, rfl, -, hmem⟩ := h
  intro hnodup
  rw [List.map_append, List.map_cons, List.nodup_append] at hnodup
  exact hnodup.2.2 _ hmem _ List.mem_cons_self rfl

theorem eq_of_split {first second : KeywordEntry} {earlier between later rest : List KeywordEntry}
    (hnodup : ((earlier ++ between).map KeywordEntry.spelling).Nodup)
    (hmem : first.spelling ∈ earlier.map KeywordEntry.spelling)
    (hsplit : first :: later = between ++ second :: rest) : first = second := by
  cases between with
  | nil => exact (List.cons.inj hsplit).1
  | cons other between =>
      obtain ⟨rfl, -⟩ := List.cons.inj hsplit
      have hearlier : (earlier.map KeywordEntry.spelling).Nodup := by
        rw [List.map_append] at hnodup
        exact (List.nodup_append.1 hnodup).1
      exact (FirstRepeated.not_nodup ⟨earlier, between, rfl, hearlier, hmem⟩ hnodup).elim

theorem FirstRepeated.unique {first second : KeywordEntry} (h : FirstRepeated entries first)
    (h' : FirstRepeated entries second) : first = second := by
  obtain ⟨earlier, later, rfl, hearlier, hmem⟩ := h
  obtain ⟨before, rest, hsplit, hbefore, hmem'⟩ := h'
  -- Whichever stands further behind has the other one among the entries before it.
  rcases List.append_eq_append_iff.1 hsplit with ⟨between, rfl, hbehind⟩ | ⟨between, rfl, hbehind⟩
  · exact eq_of_split hbefore hmem hbehind
  · exact (eq_of_split hearlier hmem' hbehind).symm

/-- Entries are put in one after the other, up to the first that repeats a spelling. -/
theorem foldlM_insert_cases {earlier : List KeywordEntry} {trie : KeywordTrie}
    (h : Holds earlier trie) (hearlier : (earlier.map KeywordEntry.spelling).Nodup) :
    (((earlier ++ entries).map KeywordEntry.spelling).Nodup ∧
      ∃ after, entries.foldlM KeywordTrie.insert trie = .ok after ∧
        Holds (earlier ++ entries) after) ∨
    ∃ entry, FirstRepeated (earlier ++ entries) entry ∧
      entries.foldlM KeywordTrie.insert trie = .error ⟨entry.spelling⟩ := by
  induction entries generalizing earlier trie with
  | nil =>
      rw [List.append_nil]
      exact .inl ⟨hearlier, trie, rfl, h⟩
  | cons entry entries ih =>
      rw [List.foldlM_cons]
      by_cases hmem : entry.spelling ∈ earlier.map KeywordEntry.spelling
      · rw [h.insert_eq_error_iff.2 ⟨hmem, rfl⟩]
        exact .inr ⟨entry, ⟨earlier, entries, rfl, hearlier, hmem⟩, rfl⟩
      · cases hinsert : trie.insert entry with
        | error duplicate => exact (hmem (h.insert_eq_error_iff.1 hinsert).1).elim
        | ok after =>
            have hnodup : ((earlier ++ [entry]).map KeywordEntry.spelling).Nodup := by
              rw [List.map_append, List.nodup_append]
              refine ⟨hearlier, List.pairwise_singleton _ _, ?_⟩
              simpa using hmem
            have hrest := ih (h.insert hinsert) hnodup
            rw [List.append_assoc] at hrest
            exact hrest

theorem ofEntries_cases (entries : List KeywordEntry) :
    ((entries.map KeywordEntry.spelling).Nodup ∧
      ∃ trie, ofEntries entries = .ok trie ∧ Holds entries trie) ∨
    ∃ entry, FirstRepeated entries entry ∧ ofEntries entries = .error ⟨entry.spelling⟩ :=
  foldlM_insert_cases holds_empty List.nodup_nil

/-! ## Walks -/

/-- A word is walked up to the end of its longest beginning that leads to a node. -/
theorem walk_spec (node : KeywordTrie) (word : List Char) :
    node.nodeAt? (word.take (node.walk word).1) = some (node.walk word).2 ∧
      (node.walk word).1 ≤ word.length ∧
      ∀ size ≤ word.length,
        (node.nodeAt? (word.take size)).isSome = true ↔ size ≤ (node.walk word).1 := by
  induction word generalizing node with
  | nil => simp [walk, nodeAt?]
  | cons c word ih =>
      rw [walk]
      cases hstep : node.step c with
      | none =>
          refine ⟨rfl, Nat.zero_le _, fun size hsize => ?_⟩
          cases size with
          | zero => simp [nodeAt?]
          | succ size => simp [nodeAt?, hstep]
      | some next =>
          obtain ⟨hreached, hle, hsizes⟩ := ih next
          refine ⟨by simpa [nodeAt?, hstep] using hreached, Nat.succ_le_succ hle,
            fun size hsize => ?_⟩
          cases size with
          | zero => simp [nodeAt?]
          | succ size =>
              simpa [nodeAt?, hstep] using hsizes size (Nat.le_of_succ_le_succ hsize)

/-- A trie is refused exactly if two entries have one spelling, with the first entry that repeats
one.  Otherwise each word is walked as far as it begins a spelling; the node reached has the entry
spelled so far, if there is one, and goes on with just the characters that go on such a
beginning. -/
theorem ofEntries_holds (entries : List KeywordEntry) :
    ((∃ duplicate, ofEntries entries = .error duplicate) ↔
        ¬ (entries.map KeywordEntry.spelling).Nodup) ∧
      (∀ duplicate, ofEntries entries = .error duplicate ↔
        ∃ entry, FirstRepeated entries entry ∧ duplicate = ⟨entry.spelling⟩ ∧
          duplicate.message = "Duplicate keyword spelling: " ++ Quoted.render entry.spelling) ∧
      ((entries.map KeywordEntry.spelling).Nodup → ∃ trie, ofEntries entries = .ok trie ∧
        ∀ word, ∃ depth reached, trie.walk word = (depth, reached) ∧ depth ≤ word.length ∧
          (∀ size ≤ word.length, size ≤ depth ↔
            size = 0 ∨ ∃ entry ∈ entries, word.take size <+: entry.spelling) ∧
          (∀ entry, reached.entry = some entry ↔
            entry ∈ entries ∧ entry.spelling = word.take depth) ∧
          reached.branches.keys.Nodup ∧
          ∀ c, c ∈ reached.branches.keys ↔
            ∃ entry ∈ entries, word.take depth ++ [c] <+: entry.spelling) := by
  rcases ofEntries_cases entries with ⟨hnodup, trie, hok, hholds⟩ | ⟨entry, hfirst, herror⟩
  · rw [hok]
    refine ⟨iff_of_false nofun (not_not_intro hnodup), fun duplicate => iff_of_false nofun ?_,
      fun _ => ⟨trie, rfl, fun word => ?_⟩⟩
    · rintro ⟨entry, hfirst, -, -⟩
      exact hfirst.not_nodup hnodup
    · obtain ⟨hreached, hle, hsizes⟩ := walk_spec trie word
      refine ⟨_, _, rfl, hle, fun size hsize => ?_, fun entry => ?_, ?_, fun c => ?_⟩
      · have hnone : word.take size = [] ↔ size = 0 := by
          rw [← List.length_eq_zero_iff, List.length_take]
          omega
        rw [← hsizes size hsize, hholds.reaches, hnone]
      · rw [← hholds.entryAt, entryAt?_eq, hreached, Option.bind_some]
      · exact (distinct_nodeAt? hholds.distinct hreached).nodup_keys
      · rw [mem_keys_iff_nodeAt? hreached, hholds.reaches]
        simp
  · rw [herror]
    refine ⟨iff_of_true ⟨_, rfl⟩ hfirst.not_nodup, fun duplicate => ⟨fun h => ?_, ?_⟩,
      fun hnodup => (hfirst.not_nodup hnodup).elim⟩
    · obtain rfl := Except.error.inj h
      exact ⟨entry, hfirst, rfl, rfl⟩
    · rintro ⟨other, hother, rfl, -⟩
      rw [hfirst.unique hother]

def sharedBeginnings : List KeywordEntry :=
  [⟨.kwElsif, "elsif".toList, false⟩, ⟨.kwElse, "el".toList, true⟩, ⟨.identifier, [], false⟩,
    ⟨.kwIf, "elm".toList, false⟩]

/-- Behind `el` the words split, and a spelling that comes again is refused. -/
theorem ofEntries_holds_sharedBeginnings :
    (sharedBeginnings.map KeywordEntry.spelling).Nodup ∧
      (∃ trie, ofEntries sharedBeginnings = .ok trie ∧
        ∃ reached, trie.walk "elf".toList = (2, reached) ∧
          reached.entry = some ⟨.kwElse, "el".toList, true⟩ ∧ reached.branches.keys.Nodup ∧
          's' ∈ reached.branches.keys ∧ 'f' ∉ reached.branches.keys) ∧
      ∃ duplicate, ofEntries (sharedBeginnings ++ ⟨.kwIf, "el".toList, false⟩ :: sharedBeginnings) =
        .error duplicate ∧ duplicate.message = "Duplicate keyword spelling: 'el'" := by
  have hnodup : (sharedBeginnings.map KeywordEntry.spelling).Nodup := by decide
  obtain ⟨trie, hok, hwords⟩ := (ofEntries_holds sharedBeginnings).2.2 hnodup
  obtain ⟨depth, reached, hwalk, hle, hsizes, hentry, hkeys, hmem⟩ := hwords "elf".toList
  have htwo : 2 ≤ depth := (hsizes 2 (by decide)).2 (by decide)
  have hthree : ¬ 3 ≤ depth := fun h => absurd ((hsizes 3 (by decide)).1 h) (by decide)
  obtain rfl : depth = 2 := by omega
  refine ⟨hnodup, ⟨trie, hok, reached, hwalk, (hentry _).2 (by decide), hkeys,
    (hmem 's').2 (by decide), fun h => absurd ((hmem 'f').1 h) (by decide)⟩, ⟨"el".toList⟩, ?_, ?_⟩
  · exact ((ofEntries_holds _).2.1 _).2 ⟨⟨.kwIf, "el".toList, false⟩,
      ⟨sharedBeginnings, sharedBeginnings, rfl, hnodup, by decide⟩, rfl, rfl⟩
  · decide +kernel

end KeywordTrie

end Manifest
