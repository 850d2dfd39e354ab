import Manifest.Parse.Branching
import Manifest.Parse.Declaration
import Manifest.Tree.View

/-!
# Links to children

A form speaks of other nodes by links.  In a tree that is well made no link dangles, and the
links of a node list its children in their order; what a declaration holds beyond them is
its body.
-/

namespace Manifest

/-- Each arm links two neighbouring children, both behind the first child; the arms are in the
order of the children, and no two share a child. -/
def Link.Arms (arms : List (Link × Link)) (count : Nat) : Prop :=
  ∃ firsts : List Nat,
    arms = firsts.map (fun index => (Link.child index, Link.child (index + 1))) ∧
      (∀ index ∈ firsts, 0 < index ∧ index + 1 < count) ∧
      firsts.Pairwise fun index later => index + 1 < later

namespace Node

/-- The child that a link leads to; none if the link dangles. -/
def target? (node : Node) : Link → Option Node
  | .child index => node.children[index]?
  | .detached _ _ => none

/-- The links lead to the first children of a node, one after the other; `rest` follows. -/
def Lists (node : Node) (links : List Link) (rest : List Node) : Prop :=
  ∃ linked, links.map node.target? = linked.map some ∧ node.children = linked ++ rest

/-- The links of a node list its children in their order. -/
def Linked (node : Node) : Prop :=
  match node.form with
  | .classRef name => ∃ link, name = some link ∧ node.Lists [link] []
  | .resourceAttribute _ value => node.Lists value.toList []
  | .classParam _ parameter default => node.Lists (parameter :: default.toList) []
  | .resource _ title attributes => node.Lists (title.toList ++ attributes) []
  | .classDecl name params inherits =>
      ∃ link, name = some link ∧
        node.Lists (link :: (params ++ inherits.toList)) node.body?.toList
  | .defineDecl _ params => node.Lists params node.body?.toList
  | .nodeDecl _ => node.Lists [] node.body?.toList
  | .condition test consequence otherwise =>
      ∃ link other, test = some link ∧ consequence = some other ∧
        node.Lists (link :: other :: otherwise.toList) []
  | .caseStmt control cases =>
      ∃ link first, control = some link ∧ node.target? link = some first ∧
        node.children.head? = some first ∧ Link.Arms cases node.children.length
  | _ => True

/-- The links of a node and of all nodes below it list the children. -/
def AllLinked (node : Node) : Prop :=
  ∀ element ∈ node.walk, element.Linked

variable {node : Node} {offset : Int} {ownEnd? : Option Int} {form : Form Link}
  {children nodes before after : List Node} {body? : Option Node}

/-! ## Trees -/

theorem mem_walkAll {element : Node} :
    element ∈ walkAll nodes ↔ ∃ node ∈ nodes, element ∈ node.walk := by
  induction nodes with
  | nil => simp [walkAll]
  | cons node nodes ih => simp [walkAll, ih]

theorem forall_mem_walk {property : Node → Prop} :
    (∀ element ∈ walk ⟨offset, ownEnd?, form, children⟩, property element) ↔
      property ⟨offset, ownEnd?, form, children⟩ ∧
        ∀ child ∈ children, ∀ element ∈ child.walk, property element := by
  have hwalk : walk ⟨offset, ownEnd?, form, children⟩ =
      ⟨offset, ownEnd?, form, children⟩ :: walkAll children := by
    rw [walk]
  rw [hwalk, List.forall_mem_cons]
  refine and_congr_right fun _ => ⟨fun h child hchild element helement => ?_,
    fun h element helement => ?_⟩
  · exact h element (mem_walkAll.2 ⟨child, hchild, helement⟩)
  · obtain ⟨child, hchild, hbelow⟩ := mem_walkAll.1 helement
    exact h child hchild element hbelow

theorem allLinked_iff :
    AllLinked ⟨offset, ownEnd?, form, children⟩ ↔
      Linked ⟨offset, ownEnd?, form, children⟩ ∧ ∀ child ∈ children, child.AllLinked :=
  forall_mem_walk

theorem allLinked_leaf (h : Linked (leaf offset form)) : AllLinked (leaf offset form) :=
  allLinked_iff.2 ⟨h, fun _ hchild => by cases hchild⟩

/-! ## Rows of links -/

theorem target?_linksFrom (before : List Node)
    (h : node.children = before ++ nodes ++ after) :
    (linksFrom before.length nodes.length).map node.target? = nodes.map some := by
  unfold linksFrom
  rw [List.map_map]
  induction nodes generalizing before with
  | nil => rfl
  | cons first nodes ih =>
      have hfirst : node.target? (.child before.length) = some first := by
        show node.children[before.length]? = some first
        rw [h]
        simp
      have hrest := ih (before ++ [first]) (by rw [h]; simp)
      rw [List.length_append] at hrest
      rw [List.length_cons, List.range'_succ, List.map_cons, List.map_cons]
      exact List.cons_eq_cons.2 ⟨hfirst, hrest⟩

theorem target?_toList {title? : Option Node} (before : List Node)
    (h : node.children = before ++ title?.toList ++ after) :
    (title?.map fun _ => Link.child before.length).toList.map node.target? =
      title?.toList.map some := by
  cases title? with
  | none => rfl
  | some title =>
      show [node.children[before.length]?] = [some title]
      rw [h]
      simp

theorem targets_append {links others : List Link} {linked listed : List Node}
    (h : links.map node.target? = linked.map some)
    (h' : others.map node.target? = listed.map some) :
    (links ++ others).map node.target? = (linked ++ listed).map some := by
  rw [List.map_append, List.map_append, h, h']

/-! ## Bodies -/

theorem blobs_append (hnodes : ∀ node ∈ nodes, node.isBlob = false)
    (hbody : ∀ body ∈ body?, body.isBlob = true) :
    ((nodes ++ body?.toList).zipIdx.filter fun (child, _) => child.isBlob) =
      body?.toList.map fun body => (body, nodes.length) := by
  rw [List.zipIdx_append, List.filter_append]
  have hnone : (nodes.zipIdx.filter fun (child, _) => child.isBlob) = [] := by
    refine List.filter_eq_nil_iff.2 fun pair hpair => ?_
    have hmem : pair.1 ∈ nodes := by
      have hfst := List.mem_map_of_mem (f := Prod.fst) hpair
      rwa [List.zipIdx_map_fst] at hfst
    simp [hnodes pair.1 hmem]
  rw [hnone, List.nil_append, Nat.zero_add]
  cases body? with
  | none => rfl
  | some body => simp [hbody body rfl]

/-- A last stretch of tokens behind other nodes is the body of a declaration with parameters. -/
theorem body?_append (hnodes : ∀ node ∈ nodes, node.isBlob = false)
    (hbody : ∀ body ∈ body?, body.isBlob = true) (hchildren : children = nodes ++ body?.toList)
    (hform : (∃ name params inherits, form = .classDecl name params inherits) ∨
      ∃ name params, form = .defineDecl name params) :
    Node.body? ⟨offset, ownEnd?, form, children⟩ = body? := by
  have hindex : bodyIndex? ⟨offset, ownEnd?, form, children⟩ =
      body?.map fun _ => nodes.length := by
    have hlast : ((nodes ++ body?.toList).zipIdx.filter
        fun (child, _) => child.isBlob).getLast?.map (·.2) = body?.map fun _ => nodes.length := by
      rw [blobs_append hnodes hbody]
      cases body? <;> rfl
    unfold bodyIndex?
    rw [hchildren]
    rcases hform with ⟨name, params, inherits, rfl⟩ | ⟨name, params, rfl⟩
    · exact hlast
    · exact hlast
  unfold Node.body?
  rw [hindex, hchildren]
  cases body? <;> simp

theorem body?_nodeDecl {start : Nat} {names : List (List Char)}
    (hbody : ∀ body ∈ body?, body.isBlob = true) :
    (nodeDecl start names body?).body? = body? := by
  unfold Node.body? bodyIndex? nodeDecl
  cases body? with
  | none => rfl
  | some body => simp [hbody body rfl]

end Node

end Manifest
