import Manifest.Proofs.Parallel.TopLevel

/-!
# One text by itself

A text beside itself: what is to hold of the nodes and of the reports of a single parse, and is
kept where they are made, holds of the whole of it.
-/

namespace Manifest

namespace Parallel

/-- A text beside itself; places do not matter. -/
def alone (source : List Char) (nodes : Node → Prop) (reports : List Diagnostic → Prop) :
    Parallel where
  left := source
  right := source
  beyond := []
  places := fun _ _ => True
  tokens := fun token mate => mate = token ∧ token.isTrivia = false
  nodes := fun node _ => nodes node
  reports := fun reported _ => reports reported

variable {source : List Char} {nodes : Node → Prop} {reports : List Diagnostic → Prop}
  {bound : Nat} {state : ParseState}

theorem lawful_alone (hbuilds : (alone source nodes reports).Builds)
    (hreports : ∀ (state : ParseState) (finding : Finding) (range : TextRange),
      reports state.reported → reports (state.report finding range).reported) :
    (alone source nodes reports).Lawful where
  builds := hbuilds
  kind := fun h => by rw [h.1]
  text := fun h => by rw [h.1]; rfl
  significant := fun h => h.2
  offset := fun _ => trivial
  offsetAfter := fun _ => trivial
  stop := fun _ => trivial
  min := fun _ _ => trivial
  max := fun _ _ => trivial
  length := fun _ => trivial
  report := fun finding _ h => hreports _ finding _ h
  reportEnd := fun finding _ h => hreports _ finding _ h

theorem row_alone (tokens : List Token) : (alone source nodes reports).Row tokens tokens := by
  have hrow : (alone source nodes reports).Row tokens (tokens.map id ++ []) :=
    row_map (fun _ _ => rfl) (fun _ _ htoken => ⟨rfl, htoken⟩) fun _ _ => trivial
  rwa [List.map_id, List.append_nil] at hrow

theorem abreast_alone (hplaced : state.cursor.Placed source)
    (hsignificant : ∀ token, state.token? = some token → token.isTrivia = false)
    (hreports : reports state.reported) (hbound : state.remaining < bound) :
    (alone source nodes reports).Abreast bound bound state state where
  placed := hplaced
  placed' := hplaced
  below := hbound
  below' := hbound
  row := row_alone _
  reports := hreports
  found := not_lost rfl _
  offTrivia := hsignificant

theorem forall_of_rel {nodes : Node → Prop} {row other : List Node}
    (h : List.Forall₂ (fun node _ => nodes node) row other) : ∀ node ∈ row, nodes node := by
  induction h with
  | nil => exact fun node hnode => by cases hnode
  | cons hfirst _ ih => exact List.forall_mem_cons.2 ⟨hfirst, ih⟩

theorem forall_of_optionRel {nodes : Node → Prop} {node? other? : Option Node}
    (h : Option.Rel (fun node _ => nodes node) node? other?) :
    ∀ node ∈ node?.toList, nodes node := by
  cases h with
  | none => exact fun node hnode => by cases hnode
  | some hnode => exact List.forall_mem_singleton.2 hnode

/-- What holds where nodes are made holds of the declarations of a whole manifest. -/
theorem forall_declarations (hbuilds : (alone source nodes fun _ => True).Builds)
    (multiline reportGap : Bool) (interruption : Interruption) :
    ∀ node ∈ (TopLevel.readAll source reportGap interruption
      (.ofTokens (TokenStream.lex multiline source).tokens)).declarations, nodes node := by
  have hp : (alone source nodes fun _ => True).Lawful :=
    lawful_alone hbuilds fun _ _ _ _ => trivial
  exact forall_of_rel (TopLevel.related_readAll hp rfl (row_alone _) trivial reportGap
    interruption).1

end Parallel

end Manifest
