import Manifest.Parse.Construct
import Manifest.Proofs.Checked.TopLevel
import Manifest.Proofs.Parallel.Basic

/-!
# The extent of a scan

A scan that begins on any token of a text, or past them, ends on one of its stop tokens or past
them.  What it gives is a single stretch, from the token on which it began to the end of the one
on which it stands.
-/

namespace Manifest

namespace Cursor

variable {cursor : Cursor} {source : List Char} {multiline : Bool}

theorem begun_of_index (h : 0 ≤ cursor.index) : cursor.Begun := by
  cases cursor with
  | start tokens =>
      have hindex : (start tokens).index = -1 := rfl
      omega
  | on behind token ahead => trivial
  | past behind => trivial

/-- The token under a cursor is the one at its index. -/
theorem getElem?_tokens (h : cursor.Begun) :
    cursor.tokens[cursor.behind.length]? = cursor.token? := by
  rw [tokens_eq, List.getElem?_append_right (Nat.le_of_eq List.length_reverse),
    List.length_reverse, Nat.sub_self, token?_of_begun h, List.head?_eq_getElem?]

theorem placed_of_lex (h : cursor.Begun)
    (htokens : cursor.tokens = (TokenStream.lex multiline source).tokens) :
    cursor.Placed source := by
  obtain ⟨htiles, hcovers⟩ := TokenStream.tiles_lex multiline source
  exact ⟨h, by rw [htokens]; exact htiles, by rw [htokens]; exact hcovers⟩

end Cursor

/-- A stretch takes the text from one token of a row to the end of another one, or of the text
where there is none; no token but one of the given kinds ends it. -/
structure Extent (source : List Char) (stops : List TokenKind) (tokens : List Token)
    (first last : Nat) (blob : Node) : Prop where
  onward : first ≤ last
  within : last ≤ tokens.length
  stopped : ∀ token, tokens[last]? = some token → stops.contains token.kind = true
  offset : blob.offset = (tokens[first]?.map Token.offset).getD source.length
  endOffset : blob.endOffset = (tokens[last]?.map Token.stop).getD source.length
  below : ∀ node ∈ blob.walk, node.endOffset ≤ blob.endOffset

namespace ParseState

variable {source : List Char} {state : ParseState}

theorem offset_eq_getElem? (h : state.cursor.Begun) :
    state.offset source =
      (state.cursor.tokens[state.cursor.behind.length]?.map Token.offset).getD source.length := by
  rw [Cursor.getElem?_tokens h]
  cases htoken : state.cursor.token? with
  | some token => exact Cursor.offset_of_token? htoken
  | none => exact Cursor.offset_of_none h htoken

theorem currentStop_eq_getElem? (h : state.cursor.Begun) :
    state.currentStop source =
      (state.cursor.tokens[state.cursor.behind.length]?.map Token.stop).getD source.length := by
  rw [Cursor.getElem?_tokens h]
  cases htoken : state.cursor.token? with
  | some token => exact currentStop_of_token? htoken
  | none => exact currentStop_of_none htoken

end ParseState

namespace Scan

variable {source : List Char} {stops : List TokenKind} {state : ParseState}

/-- A scan gives a stretch that begins where it is told and ends with the token on which the
scan stands. -/
theorem ends_scan (source : List Char) (offset : Nat) (stops : List TokenKind)
    (state : ParseState) :
    (Manifest.scan source offset stops state).1.offset = offset ∧
      (Manifest.scan source offset stops state).1.ownEnd? =
        some ((Manifest.scan source offset stops state).2.currentStop source : Int) :=
  ⟨rfl, rfl⟩

/-- Nothing that a scan takes out ends behind the token on which the scan stands, wherever its
stretch is said to begin. -/
theorem endOffset_scan_of_le {offset : Nat} (stops : List TokenKind)
    (hplaced : state.cursor.Placed source) (hoffset : offset ≤ state.offset source) :
    (Manifest.scan source offset stops state).1.endOffset =
      (Manifest.scan source offset stops state).2.currentStop source := by
  have hfits := (lays_scan source (state.remaining + 1) offset stops state (Nat.lt_succ_self _)
    hplaced hoffset).fits.2.2
  exact Node.endOffset_eq_of_ownEnd (ends_scan source offset stops state).2 hfits

theorem endOffset_scan (stops : List TokenKind) (hplaced : state.cursor.Placed source) :
    (Manifest.scan source (state.offset source) stops state).1.endOffset =
      (Manifest.scan source (state.offset source) stops state).2.currentStop source :=
  endOffset_scan_of_le stops hplaced (Nat.le_refl _)

/-- From any index of a lexed text no check of a scan fails.  The scan goes on to a stop token
or past the last token, the stretch that it gives takes just the text up to the end of that
token, and it is all that a node is filled with. -/
theorem scan_extent (multiline reportGap valid : Bool) (stops : List TokenKind)
    (state : ParseState) (first : Nat)
    (htokens : state.cursor.tokens = (TokenStream.lex multiline source).tokens)
    (hindex : state.cursor.index = first) :
    ∃ (blob : Node) (after : ParseState) (last : Nat),
      Checked.scan source (state.offset source) stops state = .ok (blob, after) ∧
      Construct.read source reportGap valid (.stretch stops) state =
        .ok (.into .nothing [blob] after) ∧
      after.cursor.tokens = state.cursor.tokens ∧ after.cursor.index = last ∧
      Extent source stops state.cursor.tokens first last blob := by
  have hbegun : state.cursor.Begun := Cursor.begun_of_index (by omega)
  have hplaced : state.cursor.Placed source := Cursor.placed_of_lex hbegun htokens
  have hfirst : state.cursor.behind.length = first := by
    have hlength := Cursor.index_of_begun hbegun
    omega
  have hstretch : state.Stretch source (state.offset source) stops
      (Manifest.scan source (state.offset source) stops state) :=
    (lays_scan source _).here hplaced (Nat.lt_succ_self _) stops
  have hchecked := (Checked.agrees_scan source (state.remaining + 1)).agrees
    (state.offset source) stops state (Nat.lt_succ_self _) hplaced (Nat.le_refl _)
  have hread : Construct.read source reportGap valid (.stretch stops) state =
      .ok (.into .nothing [(Manifest.scan source (state.offset source) stops state).1]
        (Manifest.scan source (state.offset source) stops state).2) := rfl
  have hoffset := (ends_scan source (state.offset source) stops state).1
  have hend := endOffset_scan stops hplaced
  generalize Manifest.scan source (state.offset source) stops state = result at *
  rcases result with ⟨blob, after⟩
  have hafter : after.cursor.Begun := hstretch.leads.begun hbegun
  have hsame : after.cursor.tokens = state.cursor.tokens := hstretch.leads.tokens_eq
  refine ⟨blob, after, after.cursor.behind.length, hchecked, hread, hsame,
    Cursor.index_of_begun hafter, ?_⟩
  constructor
  · have hle := hstretch.leads.index_le hbegun
    rw [hindex, Cursor.index_of_begun hafter] at hle
    exact Int.ofNat_le.1 hle
  · rw [← hsame, Cursor.tokens_eq, List.length_append, List.length_reverse]
    exact Nat.le_add_right _ _
  · intro token htoken
    rw [← hsame, Cursor.getElem?_tokens hafter] at htoken
    exact hstretch.stopped token htoken
  · rw [hoffset, ← hfirst, ParseState.offset_eq_getElem? hbegun]
  · rw [hend, ← hsame, ParseState.currentStop_eq_getElem? hafter]
  · exact Node.endOffset_walk_le blob

def openCall : List Char :=
  "f([x) y".toList

def onOpenCall : ParseState :=
  (ParseState.ofTokens (TokenStream.lex false openCall).tokens).moveNext

/-- The open call takes all that is behind it, its own stop tokens with it. -/
theorem scan_extent_openCall :
    onOpenCall.cursor.tokens = (TokenStream.lex false openCall).tokens ∧
      onOpenCall.cursor.index = (0 : Nat) ∧
      ∃ (blob : Node) (after : ParseState) (last : Nat),
        Checked.scan openCall (onOpenCall.offset openCall) callStops onOpenCall =
          .ok (blob, after) ∧
        Construct.read openCall false true (.stretch callStops) onOpenCall =
          .ok (.into .nothing [blob] after) ∧
        after.cursor.tokens = onOpenCall.cursor.tokens ∧ after.cursor.index = last ∧
        Extent openCall callStops onOpenCall.cursor.tokens 0 last blob := by
  have htokens : onOpenCall.cursor.tokens = (TokenStream.lex false openCall).tokens :=
    (ParseState.leadsTo_moveNext _).tokens_eq
  have hindex : onOpenCall.cursor.index = (0 : Nat) := by decide +kernel
  exact ⟨htokens, hindex, scan_extent false false true callStops onOpenCall 0 htokens hindex⟩

end Scan

end Manifest
