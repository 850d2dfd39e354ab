import Manifest.Proofs.Parallel.Alone

/-!
# Links in parsed trees

No link of a parsed tree dangles, and the links of each element list its children in their
order.  The links are right where a node is made, and no node is touched after that.
-/

namespace Manifest

namespace Node

variable {offset : Int} {ownEnd? : Option Int} {form : Form Link} {children nodes : List Node}
  {title? value? inherits? body? otherwise? : Option Node} {node : Node}

/-! ## Leaves -/

theorem allLinked_string (offset : Int) (raw : List Char) : (string offset raw).AllLinked := by
  refine allLinked_iff.2 ⟨trivial, fun child hchild => ?_⟩
  unfold interpolated at hchild
  split at hchild
  · obtain ⟨reference, -, rfl⟩ := List.mem_map.1 hchild
    exact allLinked_leaf trivial
  · cases hchild

theorem allLinked_classRef (offset nameOffset : Int) (name : List Char) :
    (classRef offset nameOffset name).AllLinked :=
  allLinked_iff.2 ⟨⟨_, rfl, [_], rfl, rfl⟩, fun child hchild => by
    obtain rfl := List.mem_singleton.1 hchild
    exact allLinked_leaf trivial⟩

/-! ## Resources -/

theorem allLinked_attribute {source : List Char} {name : Token}
    (h : ∀ value ∈ value?.toList, value.AllLinked) :
    (ResourceAttributes.attributeNode source name value?).AllLinked := by
  refine allLinked_iff.2 ⟨⟨value?.toList, ?_, (List.append_nil _).symm⟩, h⟩
  exact target?_toList [] (List.append_nil _).symm

theorem allLinked_resource {offset : Nat} {type : List Char} {attributes : List Node}
    {stop? : Option Nat} (htitle : ∀ title ∈ title?.toList, title.AllLinked)
    (hattributes : ∀ given ∈ attributes, given.AllLinked) :
    (resource offset type title? attributes stop?).AllLinked := by
  refine allLinked_iff.2 ⟨⟨title?.toList ++ attributes, ?_, (List.append_nil _).symm⟩,
    List.forall_mem_append.2 ⟨htitle, hattributes⟩⟩
  exact targets_append (target?_toList [] rfl) (target?_linksFrom _ (List.append_nil _).symm)

/-! ## Declarations -/

theorem allLinked_param {source : List Char} {opened : OpenParam}
    (h : ∀ default ∈ value?.toList, default.AllLinked) :
    (Params.param source opened value?).AllLinked := by
  refine allLinked_iff.2 ⟨⟨_ :: value?.toList, ?_, (List.append_nil _).symm⟩,
    List.forall_mem_cons.2 ⟨allLinked_leaf trivial, h⟩⟩
  exact List.cons_eq_cons.2 ⟨rfl, target?_toList [_] (List.append_nil _).symm⟩

theorem targets_classDecl (offset nameOffset : Nat) (name : List Char) (params : List Node)
    (inherits? body? : Option Node) :
    (Link.child 0 :: (linksFrom 1 params.length ++
        (inherits?.map fun _ => Link.child (1 + params.length)).toList)).map
          (classDecl offset (some (nameOffset, name)) params inherits? body?).target? =
      ([leaf nameOffset (.identifier name)] ++ params ++ inherits?.toList).map some := by
  have hparams := @target?_linksFrom
    (classDecl offset (some (nameOffset, name)) params inherits? body?)
    params (inherits?.toList ++ body?.toList) [leaf nameOffset (.identifier name)]
    (List.append_assoc _ _ _)
  have hinherits := @target?_toList
    (classDecl offset (some (nameOffset, name)) params inherits? body?)
    body?.toList inherits? ([leaf nameOffset (.identifier name)] ++ params) rfl
  rw [List.length_append] at hinherits
  exact List.cons_eq_cons.2 ⟨rfl, targets_append hparams hinherits⟩

theorem allLinked_classDecl {offset nameOffset : Nat} {name : List Char} {params : List Node}
    (hparams : ∀ param ∈ params, param.AllLinked)
    (hinherits : ∀ parent ∈ inherits?.toList, parent.AllLinked)
    (hbody : ∀ body ∈ body?.toList, body.AllLinked)
    (hparamsBlob : ∀ param ∈ params, param.isBlob = false)
    (hparentBlob : ∀ parent ∈ inherits?, parent.isBlob = false)
    (hbodyBlob : ∀ body ∈ body?, body.isBlob = true) :
    (classDecl offset (some (nameOffset, name)) params inherits? body?).AllLinked := by
  have hnamed : ∀ child ∈ [leaf nameOffset (.identifier name)], child.AllLinked :=
    List.forall_mem_singleton.2 (allLinked_leaf trivial)
  have hnameBlob : ∀ child ∈ [leaf nameOffset (.identifier name)], child.isBlob = false :=
    List.forall_mem_singleton.2 rfl
  have hlisted : ∀ child ∈ [leaf nameOffset (.identifier name)] ++ params ++ inherits?.toList,
      child.isBlob = false :=
    List.forall_mem_append.2 ⟨List.forall_mem_append.2 ⟨hnameBlob, hparamsBlob⟩,
      fun parent hparent => hparentBlob parent (Option.mem_toList.1 hparent)⟩
  have hbodyOf : (classDecl offset (some (nameOffset, name)) params inherits? body?).body? =
      body? :=
    body?_append hlisted hbodyBlob rfl (.inl ⟨_, _, _, rfl⟩)
  refine allLinked_iff.2 ⟨⟨_, rfl, _, targets_classDecl _ _ _ _ _ _, ?_⟩, ?_⟩
  · exact congrArg (fun body? => _ ++ Option.toList body?) hbodyOf.symm
  · exact List.forall_mem_append.2 ⟨List.forall_mem_append.2
      ⟨List.forall_mem_append.2 ⟨hnamed, hparams⟩, hinherits⟩, hbody⟩

theorem allLinked_defineDecl {offset : Nat} {name? : Option (List Char)} {params : List Node}
    (hparams : ∀ param ∈ params, param.AllLinked)
    (hbody : ∀ body ∈ body?.toList, body.AllLinked)
    (hparamsBlob : ∀ param ∈ params, param.isBlob = false)
    (hbodyBlob : ∀ body ∈ body?, body.isBlob = true) :
    (defineDecl offset name? params body?).AllLinked := by
  have hbodyOf : (defineDecl offset name? params body?).body? = body? :=
    body?_append hparamsBlob hbodyBlob rfl (.inr ⟨_, _, rfl⟩)
  refine allLinked_iff.2 ⟨⟨params, ?_, ?_⟩, List.forall_mem_append.2 ⟨hparams, hbody⟩⟩
  · exact target?_linksFrom [] rfl
  · exact congrArg (fun body? => params ++ Option.toList body?) hbodyOf.symm

theorem allLinked_nodeDecl {offset : Nat} {names : List (List Char)}
    (hbody : ∀ body ∈ body?.toList, body.AllLinked)
    (hbodyBlob : ∀ body ∈ body?, body.isBlob = true) :
    (nodeDecl offset names body?).AllLinked := by
  have hbodyOf : (nodeDecl offset names body?).body? = body? := body?_nodeDecl hbodyBlob
  refine allLinked_iff.2 ⟨⟨[], rfl, ?_⟩, hbody⟩
  exact congrArg Option.toList hbodyOf.symm

/-! ## Statements -/

theorem allLinked_caseStatement {arms : List (Link × Link)} (hpos : 0 < children.length)
    (harms : Link.Arms arms children.length) (h : ∀ child ∈ children, child.AllLinked) :
    AllLinked ⟨offset, ownEnd?, .caseStmt (some (.child 0)) arms, children⟩ := by
  cases children with
  | nil => exact (Nat.lt_irrefl 0 hpos).elim
  | cons control rest => exact allLinked_iff.2 ⟨⟨_, control, rfl, rfl, rfl, harms⟩, h⟩

theorem allLinked_branch {branch : Branch} (hcondition : branch.condition.AllLinked)
    (hconsequence : branch.consequence.AllLinked)
    (h : ∀ otherwise ∈ otherwise?.toList, otherwise.AllLinked) :
    (branch.node otherwise?).AllLinked := by
  refine allLinked_iff.2 ⟨⟨_, _, rfl, rfl,
    [branch.condition, branch.consequence] ++ otherwise?.toList, ?_,
    (List.append_nil _).symm⟩, ?_⟩
  · refine List.cons_eq_cons.2 ⟨rfl, List.cons_eq_cons.2 ⟨rfl, ?_⟩⟩
    exact target?_toList [_, _] (List.append_nil _).symm
  · exact List.forall_mem_cons.2 ⟨hcondition, List.forall_mem_cons.2 ⟨hconsequence, h⟩⟩

end Node

namespace Parallel

open Node

theorem builds_linked (source : List Char) :
    (alone source AllLinked fun _ => True).Builds where
  string := fun _ _ => allLinked_string _ _
  plainVariable := fun _ _ => allLinked_leaf trivial
  plainDefinition := fun _ _ => allLinked_leaf trivial
  classRef := fun _ _ _ => allLinked_classRef _ _ _
  functionCall := fun _ _ h => allLinked_iff.2 ⟨trivial, forall_of_rel h⟩
  typeReference := fun _ _ h =>
    allLinked_iff.2 ⟨trivial, List.forall_mem_singleton.2 h⟩
  attributeNode := fun _ h => allLinked_attribute (forall_of_optionRel h)
  resource := fun _ _ htitle hattributes _ =>
    allLinked_resource (forall_of_optionRel htitle) (forall_of_rel hattributes)
  param := fun _ _ h => allLinked_param (forall_of_optionRel h)
  classDecl := fun _ _ _ hparams hinherits hbody =>
    allLinked_classDecl (forall_of_rel hparams) (forall_of_optionRel hinherits)
      (forall_of_optionRel hbody)
  defineDecl := fun _ _ hparams hbody =>
    allLinked_defineDecl (forall_of_rel hparams) (forall_of_optionRel hbody)
  nodeDecl := fun _ _ hbody => allLinked_nodeDecl (forall_of_optionRel hbody)
  caseStatement := fun _ _ h hpos harms =>
    allLinked_caseStatement hpos harms (forall_of_rel h)
  branch := fun _ hcondition hconsequence h =>
    allLinked_branch hcondition hconsequence (forall_of_optionRel h)
  blob := fun _ _ _ h => allLinked_iff.2 ⟨trivial, forall_of_rel h⟩

end Parallel

namespace Parsed

/-- In the tree of any text no link dangles, and the links of each element list its children in
their order, which is the order of their offsets. -/
theorem linked_ofText (options : ParseOptions) (interruption : Interruption)
    (source : List Char) :
    (ofText options interruption source).root.AllLinked ∧
      ∀ element ∈ (ofText options interruption source).root.walk,
        element.children.Pairwise fun left right => left.offset ≤ right.offset := by
  have hdeclarations := Parallel.forall_declarations (Parallel.builds_linked source)
    options.multiline options.reportGap interruption
  refine ⟨Node.allLinked_iff.2 ⟨trivial, hdeclarations⟩, fun element helement => ?_⟩
  have hspanned := (fits_root options interruption source).2.1.walk _ element helement
  have hlaid := (Node.spanned_iff.1 hspanned).2
  exact hlaid.pairwise.imp fun h => h.1

end Parsed

end Manifest
