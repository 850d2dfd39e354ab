import Manifest.Token.Kind

/-!
# Keywords

Keywords are found by walking a trie, one character at a time.  The children of
a node are a row of branches, each with the node it leads to.
-/

namespace Manifest

structure KeywordEntry where
  kind : TokenKind
  spelling : List Char
  /-- Whether the word is only a keyword when neither a brace nor `=` follows. -/
  functionLike : Bool
  deriving DecidableEq, Repr

structure DuplicateSpelling where
  spelling : List Char
  deriving DecidableEq, Repr

namespace DuplicateSpelling

def message (duplicate : DuplicateSpelling) : String :=
  "Duplicate keyword spelling: " ++ Quoted.render duplicate.spelling

end DuplicateSpelling

/-- A row of branches; `below` holds the children of the node that `key` leads to. -/
inductive KeywordBranches where
  | nil
  | cons (key : Char) (entry : Option KeywordEntry) (below others : KeywordBranches)
  deriving DecidableEq, Repr

/-- A node of the trie: the entry of the word that leads to it, and its children. -/
structure KeywordTrie where
  entry : Option KeywordEntry
  branches : KeywordBranches
  deriving DecidableEq, Repr

namespace KeywordBranches

def keys : KeywordBranches → List Char
  | .nil => []
  | .cons key _ _ others => key :: others.keys

def find? (c : Char) : KeywordBranches → Option KeywordTrie
  | .nil => none
  | .cons key entry below others =>
      if c = key then some ⟨entry, below⟩ else others.find? c

def alter {ε : Type} (c : Char) (change : KeywordTrie → Except ε KeywordTrie) :
    KeywordBranches → Except ε KeywordBranches
  | .nil => do
      let node ← change ⟨none, .nil⟩
      return .cons c node.entry node.branches .nil
  | .cons key entry below others =>
      if c = key then do
        let node ← change ⟨entry, below⟩
        return .cons key node.entry node.branches others
      else do
        let others ← others.alter c change
        return .cons key entry below others

end KeywordBranches

namespace KeywordTrie

def empty : KeywordTrie :=
  ⟨none, .nil⟩

def step (node : KeywordTrie) (c : Char) : Option KeywordTrie :=
  node.branches.find? c

/-- Put an entry at the end of a word; a node holds one entry at most. -/
def insertAt (entry : KeywordEntry) :
    List Char → KeywordTrie → Except DuplicateSpelling KeywordTrie
  | [], node =>
      match node.entry with
      | some _ => .error ⟨entry.spelling⟩
      | none => .ok { node with entry := some entry }
  | c :: word, node => do
      let branches ← node.branches.alter c (insertAt entry word)
      return { node with branches }

def insert (trie : KeywordTrie) (entry : KeywordEntry) : Except DuplicateSpelling KeywordTrie :=
  trie.insertAt entry entry.spelling

def ofEntries (entries : List KeywordEntry) : Except DuplicateSpelling KeywordTrie :=
  entries.foldlM insert empty

/-- Follow a word as far as it leads: the number of characters, and the node reached. -/
def walk : KeywordTrie → List Char → Nat × KeywordTrie
  | node, [] => (0, node)
  | node, c :: word =>
      match node.step c with
      | some child =>
          let (depth, reached) := child.walk word
          (depth + 1, reached)
      | none => (0, node)

def extensions (node : KeywordTrie) : List Char :=
  node.branches.keys.mergeSort (fun left right => left.toNat ≤ right.toNat)

end KeywordTrie

def keywordEntries : List KeywordEntry :=
  (TokenKind.keywords.map fun kind => ⟨kind, kind.spelling?.getD [], false⟩) ++
    (TokenKind.functions.map fun kind => ⟨kind, kind.spelling?.getD [], true⟩)

def keywordTrie : KeywordTrie :=
  match KeywordTrie.ofEntries keywordEntries with
  | .ok trie => trie
  | .error _ => .empty

/-- No two keywords have one spelling, so the trie holds them all. -/
theorem ofEntries_keywordEntries :
    KeywordTrie.ofEntries keywordEntries = .ok keywordTrie :=
  rfl

end Manifest
