import Manifest.Proofs.Bodies.Stretches
import Manifest.Proofs.Parsing.Resources

/-!
# Requirements and resources with their bodies

No requirement and no resource is a declaration, but a stretch of tokens inside of one may hold
declarations.
-/

namespace Manifest

variable {source : List Char} {scan : Scan} {state first failed : ParseState}

/-! ## Class references and requirements -/

namespace ParseState

theorem bodies_malformedReference (report : Bool) (state : ParseState) :
    state.Bodies [] (state.malformedReference source report).2 := by
  unfold malformedReference
  cases report with
  | true => exact bodies_record _ _ _ _
  | false => exact bodies_nothing _

theorem bodied_quotedClassRef (source : List Char) (token : Token) :
    (quotedClassRef source token).Bodied :=
  Node.bodied_classRef _ _ _

theorem bodies_classReference (source : List Char) (report : Bool) (state : ParseState) :
    state.Bodies (state.classReference source report).1.toList
      (state.classReference source report).2 := by
  unfold classReference
  dsimp only
  split
  · split
    · split
      · split
        · exact bodies_node (bodied_quotedClassRef source _) _
        · exact bodies_malformedReference report _
      · exact bodies_malformedReference report _
    · exact bodies_malformedReference report _
  · exact bodies_malformedReference report _

end ParseState

namespace RequirementNames

variable {read : RequirementNames} {names : List Node}

theorem bodies_afterName (h : first.Bodies names state) :
    first.Bodies (afterName names state).state.names (afterName names state).state.state := by
  unfold afterName
  dsimp only
  split
  · exact h
  · exact h

theorem bodies_ofClassType (hscan : scan.Bodied) (h : first.Bodies read.names read.state) :
    first.Bodies (ofClassType source scan read).state.names
      (ofClassType source scan read).state.state := by
  have hreference := ParseState.bodies_classReference source true read.state
  unfold ofClassType
  split
  · rename_i reference state heq
    rw [heq] at hreference
    exact bodies_afterName (h.append hreference)
  · rename_i failed heq
    rw [heq] at hreference
    have hfailed := h.append hreference
    rw [Option.toList_none, List.append_nil] at hfailed
    dsimp only
    split
    · exact bodies_afterName (hfailed.append (hscan.inside source indexStops
        (ParseState.next { failed with cursor := read.state.cursor })))
    · exact hfailed

theorem bodies_step (hscan : scan.Bodied) (h : first.Bodies read.names read.state) :
    first.Bodies (step source scan read).state.names (step source scan read).state.state := by
  unfold step
  split
  · exact h
  · split
    · exact bodies_afterName (h.concat (ParseState.bodied_quotedClassRef source _))
    · split
      · split
        · exact bodies_ofClassType hscan h
        · exact bodies_afterName (h.concat (Node.bodied_classRef _ _ _))
      · exact h

theorem bodies_readAll (source : List Char) (hscan : scan.Bodied) (state : ParseState) :
    state.Bodies (readAll source scan state).names (readAll source scan state).state :=
  iterate_invariant (fun read : RequirementNames => state.Bodies read.names read.state)
    (fun _ hread => bodies_step hscan hread) _ _ (ParseState.bodies_nothing state)

end RequirementNames

namespace ParseState

theorem bodies_bracketedNames (hscan : scan.Bodied) (closing : TokenKind) (state : ParseState) :
    state.Bodies (state.bracketedNames source scan closing).1
      (state.bracketedNames source scan closing).2 := by
  have hread := RequirementNames.bodies_readAll source hscan state.next
  unfold bracketedNames
  dsimp only
  split
  · exact Bodies.append hread (hscan.here source [closing] _)
  · exact hread

theorem bodies_requirementNames (hscan : scan.Bodied) (state : ParseState) :
    state.Bodies (state.requirementNames source scan).1
      (state.requirementNames source scan).2.2 := by
  unfold requirementNames
  dsimp only
  split
  · exact bodies_nothing _
  · split
    · exact RequirementNames.bodies_readAll source hscan state.next
    · split
      · exact bodies_nothing _
      · exact bodies_bracketedNames hscan _ state.next

theorem bodies_requirementAt (source : List Char) (hscan : scan.Bodied) (token : Token)
    (state : ParseState) :
    state.Bodies [(state.requirementAt source scan token).1]
      (state.requirementAt source scan token).2.2 :=
  Bodies.parent (bodies_requirementNames hscan state) rfl

end ParseState

/-! ## Resources -/

namespace ResourceAttributes

variable {read : ResourceAttributes}

def nodes (read : ResourceAttributes) : List Node :=
  read.attributes ++ read.value?.toList

theorem bodies_close (h : first.Bodies read.nodes read.state) :
    first.Bodies (read.close source).attributes read.state := by
  unfold close
  split
  · refine h.imp fun hnodes => ?_
    obtain ⟨hattributes, hvalue⟩ := List.forall_mem_append.1 hnodes
    exact List.forall_mem_append.2 ⟨hattributes,
      List.forall_mem_singleton.2 (Node.bodied_iff.2 ⟨rfl, hvalue⟩)⟩
  · exact h.imp fun hnodes => (List.forall_mem_append.1 hnodes).1

theorem nodes_close (source : List Char) (read : ResourceAttributes) :
    (read.close source).nodes = (read.close source).attributes := by
  unfold nodes close
  split <;> exact List.append_nil _

theorem bodies_step (hscan : scan.Bodied) (h : first.Bodies read.nodes read.state) :
    first.Bodies (step source scan read).state.nodes (step source scan read).state.state := by
  unfold step
  split
  · exact h
  · dsimp only
    split
    · exact h
    · split
      · -- A new value takes the place of an older one.
        have hattributes : first.Bodies read.attributes read.state :=
          h.imp fun hnodes => (List.forall_mem_append.1 hnodes).1
        exact hattributes.append (hscan.here source attributeValueStops read.state.next)
      · split
        · show first.Bodies (nodes (close source _)) read.state
          rw [nodes_close]
          apply bodies_close
          exact h
        · exact h

theorem bodies_readAll (hscan : scan.Bodied) (state : ParseState) :
    state.Bodies (readAll source scan state).attributes (readAll source scan state).state := by
  unfold readAll
  rw [state_close]
  apply bodies_close
  exact iterate_invariant (fun read : ResourceAttributes => state.Bodies read.nodes read.state)
    (fun _ hread => bodies_step hscan hread) _ _ (ParseState.bodies_nothing state)

end ResourceAttributes

namespace ParseState

theorem bodies_resourceBody (hscan : scan.Bodied) {title? : Option Node}
    (h : first.Bodies title?.toList state) (type : List Char) (offset : Nat) :
    first.Bodies [(state.resourceBody source scan type offset title?).1]
      (state.resourceBody source scan type offset title?).2 :=
  Bodies.parent (h.append (ResourceAttributes.bodies_readAll hscan state)) rfl

theorem bodies_resourceTitle (source : List Char) (hscan : scan.Bodied) (type : List Char)
    (token : Token) (state : ParseState) :
    state.Bodies (state.resourceTitle source scan type token).1.toList
      (state.resourceTitle source scan type token).2 := by
  unfold resourceTitle
  split
  · split
    · exact bodies_node (bodied_quotedClassRef source token) _
    · exact bodies_node (Node.bodied_string _ _) _
  · exact bodies_node (Node.bodied_string _ _) _
  · exact bodies_node (Node.bodied_string _ _) _
  · exact bodies_node (Node.bodied_leaf rfl) _
  · exact hscan.bodies _ indexStops state.moveNext
  · exact bodies_nothing _

theorem bodies_restOfBody (hscan : scan.Bodied) (state : ParseState) :
    state.Bodies (state.restOfBody source scan).1 (state.restOfBody source scan).2 :=
  hscan.here source bodyStops state

theorem bodies_resource (hscan : scan.Bodied) (type : List Char) (offset : Nat)
    (state : ParseState) :
    state.Bodies (state.resource source scan type offset).1
      (state.resource source scan type offset).2 := by
  unfold resource
  split
  · exact bodies_resourceBody hscan (bodies_nothing state) type offset
  · dsimp only
    split
    · exact bodies_nothing _
    · rename_i token htoken
      have htitle := bodies_resourceTitle source hscan type token state.next
      split
      · rename_i last heq
        rw [heq] at htitle
        exact Bodies.append (bodies_record state [] _ _) (bodies_restOfBody hscan _)
      · rename_i title last heq
        rw [heq] at htitle
        split
        · have hcolon : state.Bodies (some title).toList last.next := htitle
          exact bodies_resourceBody hscan hcolon type offset
        · split
          · exact Bodies.append (bodies_record state [] _ _) (bodies_restOfBody hscan _)
          · exact bodies_record _ _ _ _

end ParseState

end Manifest
