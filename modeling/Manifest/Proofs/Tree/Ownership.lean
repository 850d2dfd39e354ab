import Mathlib.Data.List.Nodup
import Manifest.Proofs.Tree.Insertion
import Manifest.Proofs.Tree.Moves

/-!
# Who owns whom in a forest

An element that is moved about stands among the children of its parent, once, and nowhere
else; children stand in the order of their offsets, and where offsets are equal in the order
in which they were attached.  A ledger is a forest that is changed with each check on the way,
by the search for the place of a child, and that keeps account of the attachments.
-/

namespace Manifest

/-- An element that is to leave a row of children in which it does not stand. -/
structure MissingChild where
  child : Nat
  parent : Nat
  deriving DecidableEq, Repr

/-- A forest, and the elements that were attached in it. -/
structure Ledger where
  forest : Forest
  /-- Each attachment, the latest first. -/
  attached : List Nat
  deriving DecidableEq, Repr

namespace Forest

def takenBy? : Form Nat → Option Nat
  | .classParam _ parameter _ => some parameter
  | _ => none

/-- Whether an edit moves only elements that there are, and only to such elements. -/
def Edit.isKnown (size : Nat) : Edit → Bool
  | .create _ form parent? => parent?.all (· < size) && (takenBy? form).all (· < size)
  | .setParent id parent? => id < size && parent?.all (· < size)
  | .setName id child | .setTitle id child | .addAttribute id child | .setValue id child
  | .setDefault id child | .setInherits id child => id < size && child < size
  | _ => true

/-- Whether each edit of a row is about the elements that there are when its turn comes. -/
def allKnown : Forest → List Edit → Bool
  | _, [] => true
  | forest, edit :: edits => edit.isKnown forest.size && allKnown (forest.apply edit) edits

end Forest

namespace Ledger

open Forest (Edit)

def empty : Ledger :=
  ⟨.empty, []⟩

/-- Take an element out of the children of its parent, where it must stand. -/
def detach (ledger : Ledger) (id : Nat) : Except MissingChild Ledger :=
  match ledger.forest.parentOf? id with
  | none => .ok ledger
  | some parent =>
      if id ∈ ledger.forest.childrenOf parent then
        .ok { ledger with forest := ledger.forest.detach id }
      else
        .error ⟨id, parent⟩

def attach (ledger : Ledger) (id parent : Nat) : Ledger where
  forest := (ledger.forest.withParent id (some parent)).withRow parent
    (Forest.insertSorted ledger.forest.offsetOf id)
  attached := id :: ledger.attached

def setParent (ledger : Ledger) (id : Nat) (parent? : Option Nat) : Except MissingChild Ledger :=
  if ledger.forest.parentOf? id = parent? then
    .ok ledger
  else do
    let detached ← ledger.detach id
    match parent? with
    | none => return detached
    | some parent => return detached.attach id parent

def add (ledger : Ledger) (offset : Int) (form : Form Nat) (parent? : Option Nat) :
    Except MissingChild Ledger :=
  { ledger with forest := ledger.forest.append offset form }.setParent ledger.forest.size parent?

def addReferences (id : Nat) (start : Int) :
    List Reference → Ledger → Except MissingChild Ledger
  | [], ledger => .ok ledger
  | reference :: references, ledger => do
      let added ← ledger.add (start + reference.position)
        (.variable ('$' :: reference.name) reference.length) (some id)
      addReferences id start references added

def create (ledger : Ledger) (offset : Int) (form : Form Nat) (parent? : Option Nat) :
    Except MissingChild Ledger := do
  let id := ledger.forest.size
  let added ← ledger.add offset form parent?
  match form with
  | .string raw =>
      if Quotation.isQuotedBy '"' raw then
        addReferences id (offset + 1) (Reference.findAll (Quotation.inner raw)) added
      else
        return added
  | .classParam _ parameter _ => added.setParent parameter (some id)
  | _ => return added

def adopt (ledger : Ledger) (id child : Nat) (change : Form Nat → Form Nat) :
    Except MissingChild Ledger := do
  let adopted ← ledger.setParent child (some id)
  return { adopted with forest := adopted.forest.setForm id change }

/-- The ledger after an edit.  Those that move no element are nothing to be checked. -/
def apply (ledger : Ledger) : Edit → Except MissingChild Ledger
  | .create offset form parent? => ledger.create offset form parent?
  | .setParent id parent? => ledger.setParent id parent?
  | .setName id name => ledger.adopt id name (Form.setName name)
  | .setTitle id title => ledger.adopt id title (Form.setTitle title)
  | .addAttribute id added => ledger.adopt id added (Form.addAttribute added)
  | .setValue id value => ledger.adopt id value (Form.setValue value)
  | .setDefault id default => ledger.adopt id default (Form.setDefault default)
  | .setInherits id parent => ledger.adopt id parent (Form.setInherits parent)
  | edit => .ok { ledger with forest := ledger.forest.apply edit }

def run : List Edit → Ledger → Except MissingChild Ledger
  | [], ledger => .ok ledger
  | edit :: edits, ledger => do run edits (← ledger.apply edit)

/-- A child comes before another one by its offset, or by its attachment if the offsets are
equal. -/
def Precedes (ledger : Ledger) (left right : Nat) : Prop :=
  ledger.forest.offsetOf left < ledger.forest.offsetOf right ∨
    ledger.forest.offsetOf left = ledger.forest.offsetOf right ∧
      ledger.attached.idxOf right < ledger.attached.idxOf left

/-- Parents and rows of children tell the same, rows are in order, and each child was attached. -/
structure Consistent (ledger : Ledger) : Prop where
  known : ∀ child parent, ledger.forest.parentOf? child = some parent →
    parent < ledger.forest.size
  owned : ∀ child parent, child ∈ ledger.forest.childrenOf parent ↔
    ledger.forest.parentOf? child = some parent
  once : ∀ parent, (ledger.forest.childrenOf parent).Nodup
  ordered : ∀ parent, (ledger.forest.childrenOf parent).Pairwise ledger.Precedes
  entered : ∀ child parent, child ∈ ledger.forest.childrenOf parent → child ∈ ledger.attached

/-- A change that fails no check and leaves the ledger consistent, with a given forest. -/
def Reaches (result : Except MissingChild Ledger) (forest : Forest) : Prop :=
  ∃ after, result = .ok after ∧ after.forest = forest ∧ after.Consistent

variable {ledger : Ledger} {id child parent : Nat} {parent? : Option Nat} {offset : Int}
  {form : Form Nat}

theorem Precedes.offset_le {left right : Nat} (h : ledger.Precedes left right) :
    ledger.forest.offsetOf left ≤ ledger.forest.offsetOf right := by
  rcases h with h | h
  · exact Int.le_of_lt h
  · exact Int.le_of_eq h.1

/-! ## Taking elements out -/

/-- An element stands where it is to be taken out. -/
theorem detach_eq (h : ledger.Consistent) (id : Nat) :
    ledger.detach id = .ok { ledger with forest := ledger.forest.detach id } := by
  unfold detach
  cases hparent : ledger.forest.parentOf? id with
  | none => rw [Forest.detach_of_none hparent]
  | some parent => exact if_pos ((h.owned id parent).2 hparent)

theorem Consistent.detach (h : ledger.Consistent) (id : Nat) :
    Consistent { ledger with forest := ledger.forest.detach id } := by
  have hparents := Forest.parentOf?_detach ledger.forest id
  have hrows := Forest.childrenOf_detach (h.known id)
  have hsublist : ∀ parent,
      ((ledger.forest.detach id).childrenOf parent).Sublist (ledger.forest.childrenOf parent) := by
    intro parent
    rw [hrows]
    split
    · exact List.erase_sublist
    · exact List.Sublist.refl _
  have hprecedes : Precedes { ledger with forest := ledger.forest.detach id } =
      ledger.Precedes := by
    unfold Precedes
    rw [Forest.offsetOf_detach]
  refine ⟨fun child parent hchild => ?_, fun child parent => ?_,
    fun parent => (hsublist parent).nodup (h.once parent), fun parent => ?_,
    fun child parent hchild => h.entered child parent ((hsublist parent).subset hchild)⟩
  · rw [hparents] at hchild
    rw [Forest.size_detach]
    split at hchild
    · cases hchild
    · exact h.known child parent hchild
  · rw [hparents, hrows]
    by_cases hid : id = child
    · subst hid
      rw [if_pos rfl]
      split
      · simp [(h.once parent).mem_erase_iff]
      · simp [h.owned id parent, *]
    · rw [if_neg hid]
      split
      · rw [(h.once parent).mem_erase_iff, h.owned]
        exact and_iff_right (Ne.symm hid)
      · exact h.owned child parent
  · rw [hprecedes]
    exact (h.ordered parent).sublist (hsublist parent)

/-! ## Putting elements in -/

theorem attach_forest (h : ledger.Consistent) (id parent : Nat) :
    (ledger.attach id parent).forest = ledger.forest.attach id parent := by
  refine Forest.withRow_congr ?_
  rw [Forest.childrenOf_withParent]
  exact Forest.insertSorted_eq ((h.ordered parent).imp Precedes.offset_le)

/-- What was attached last comes behind all others of its offset. -/
theorem precedes_attach (h : ledger.Consistent) (id parent : Nat) {left right : Nat} :
    (ledger.attach id parent).Precedes left right ↔
      ledger.forest.offsetOf left < ledger.forest.offsetOf right ∨
        ledger.forest.offsetOf left = ledger.forest.offsetOf right ∧
          (id :: ledger.attached).idxOf right < (id :: ledger.attached).idxOf left := by
  unfold Precedes
  rw [attach_forest h, Forest.offsetOf_attach]
  rfl

theorem Consistent.not_mem (h : ledger.Consistent)
    (hnone : ledger.forest.parentOf? id = none) (parent : Nat) :
    id ∉ ledger.forest.childrenOf parent := by
  intro hmem
  have hparent := (h.owned id parent).1 hmem
  rw [hnone] at hparent
  cases hparent

theorem Consistent.ordered_attach (h : ledger.Consistent)
    (hnone : ledger.forest.parentOf? id = none) (parent other : Nat) :
    (ledger.forest.childrenOf other).Pairwise (ledger.attach id parent).Precedes := by
  refine (h.ordered other).imp_of_mem fun {left right} hleft hright hprecedes => ?_
  have hneLeft : id ≠ left := fun hsame => h.not_mem hnone other (hsame ▸ hleft)
  have hneRight : id ≠ right := fun hsame => h.not_mem hnone other (hsame ▸ hright)
  rw [precedes_attach h, List.idxOf_cons_ne _ hneLeft, List.idxOf_cons_ne _ hneRight]
  exact hprecedes.imp_right fun hequal => ⟨hequal.1, Nat.succ_lt_succ hequal.2⟩

/-- The new child has its place in the order. -/
theorem Consistent.ordered_insert (h : ledger.Consistent)
    (hnone : ledger.forest.parentOf? id = none) (parent : Nat) :
    (Forest.insertByOffset ledger.forest.offsetOf id
      (ledger.forest.childrenOf parent)).Pairwise (ledger.attach id parent).Precedes := by
  refine Forest.pairwise_insertByOffset (h.ordered_attach hnone parent parent)
    ((h.ordered parent).imp Precedes.offset_le) (fun other hother hle => ?_)
    fun other hother hless => (precedes_attach h id parent).2 (.inl hless)
  have hne : id ≠ other := fun hsame => h.not_mem hnone parent (hsame ▸ hother)
  rw [precedes_attach h, List.idxOf_cons_ne _ hne, List.idxOf_cons_self]
  rcases Int.lt_or_eq_of_le hle with hless | hequal
  · exact .inl hless
  · exact .inr ⟨hequal, Nat.zero_lt_succ _⟩

theorem Consistent.attach (h : ledger.Consistent) (hid : id < ledger.forest.size)
    (hparent : parent < ledger.forest.size) (hnone : ledger.forest.parentOf? id = none) :
    (ledger.attach id parent).Consistent := by
  have hperm := Forest.perm_insertByOffset ledger.forest.offsetOf id
    (ledger.forest.childrenOf parent)
  have hparents := Forest.parentOf?_attach hid parent
  have hrows := Forest.childrenOf_attach hparent id
  rw [← attach_forest h] at hparents hrows
  refine ⟨fun child other hchild => ?_, fun child other => ?_, fun other => ?_,
    fun other => ?_, fun child other hchild => ?_⟩
  · rw [hparents] at hchild
    rw [attach_forest h, Forest.size_attach]
    split at hchild
    · exact Option.some.inj hchild ▸ hparent
    · exact h.known child other hchild
  · rw [hparents, hrows]
    by_cases hrow : parent = other
    · subst hrow
      rw [if_pos rfl, hperm.mem_iff, List.mem_cons, h.owned]
      split
      · simp [*]
      · rename_i hne
        exact or_iff_right (Ne.symm hne)
    · rw [if_neg hrow, h.owned]
      split
      · rename_i hsame
        subst hsame
        simp [hnone, hrow]
      · exact Iff.rfl
  · rw [hrows]
    split
    · rename_i hrow
      subst hrow
      exact hperm.nodup_iff.2 (List.nodup_cons.2 ⟨h.not_mem hnone parent, h.once parent⟩)
    · exact h.once other
  · rw [hrows]
    split
    · rename_i hrow
      subst hrow
      exact h.ordered_insert hnone parent
    · exact h.ordered_attach hnone parent other
  · rw [hrows] at hchild
    split at hchild
    · rename_i hrow
      subst hrow
      rcases List.mem_cons.1 (hperm.mem_iff.1 hchild) with rfl | hchild
      · exact List.mem_cons_self
      · exact List.mem_cons_of_mem _ (h.entered child parent hchild)
    · exact List.mem_cons_of_mem _ (h.entered child other hchild)

/-! ## Elements that are not moved -/

theorem Consistent.of_same (h : ledger.Consistent) {forest : Forest}
    (hsize : ledger.forest.size ≤ forest.size)
    (hparents : forest.parentOf? = ledger.forest.parentOf?)
    (hrows : forest.childrenOf = ledger.forest.childrenOf)
    (hoffset : ∀ id < ledger.forest.size, forest.offsetOf id = ledger.forest.offsetOf id) :
    Consistent { ledger with forest } := by
  refine ⟨fun child parent hchild => ?_, fun child parent => ?_, fun parent => ?_,
    fun parent => ?_, fun child parent hchild => ?_⟩
  · rw [hparents] at hchild
    exact Nat.lt_of_lt_of_le (h.known child parent hchild) hsize
  · rw [hparents, hrows]
    exact h.owned child parent
  · rw [hrows]
    exact h.once parent
  · rw [hrows]
    have hlow : ∀ child ∈ ledger.forest.childrenOf parent, child < ledger.forest.size :=
      fun child hchild => Forest.lt_of_parentOf? ((h.owned child parent).1 hchild)
    refine (h.ordered parent).imp_of_mem fun {left right} hleft hright hprecedes => ?_
    unfold Precedes
    rw [hoffset left (hlow left hleft), hoffset right (hlow right hright)]
    exact hprecedes
  · rw [hrows] at hchild
    exact h.entered child parent hchild

/-- A new element has neither a parent nor children yet. -/
theorem Consistent.append (h : ledger.Consistent) (offset : Int) (form : Form Nat) :
    Consistent { ledger with forest := ledger.forest.append offset form } := by
  refine h.of_same ?_ Forest.parentOf?_append Forest.childrenOf_append
    fun id hid => Forest.offsetOf_append_of_lt hid
  rw [Forest.size_append]
  exact Nat.le_succ _

/-- A change that leaves offset, parent and children alone moves nothing. -/
theorem Consistent.modify (h : ledger.Consistent) (id : Nat) {change : Element → Element}
    (hoffset : ∀ element, (change element).offset = element.offset)
    (hparent : ∀ element, (change element).parent? = element.parent?)
    (hchildren : ∀ element, (change element).children = element.children) :
    Consistent { ledger with forest := ledger.forest.modify id change } := by
  refine h.of_same ?_ (Forest.parentOf?_modify _ hparent id)
    (Forest.childrenOf_modify _ hchildren id) fun other _ => ?_
  · exact Nat.le_of_eq (Forest.size_modify _ _ _).symm
  · rw [Forest.offsetOf_modify _ hoffset]

/-! ## Edits -/

theorem reaches_setParent (h : ledger.Consistent) (hid : id < ledger.forest.size)
    (hparent : ∀ parent, parent? = some parent → parent < ledger.forest.size) :
    Reaches (ledger.setParent id parent?) (ledger.forest.setParent id parent?) := by
  unfold setParent Forest.setParent
  split
  · exact ⟨ledger, rfl, rfl, h⟩
  · rw [detach_eq h]
    have hdetached := h.detach id
    cases parent? with
    | none => exact ⟨_, rfl, rfl, hdetached⟩
    | some parent =>
        have hnone : (ledger.forest.detach id).parentOf? id = none := by
          rw [Forest.parentOf?_detach, if_pos rfl]
        have hsize : ∀ other, other < ledger.forest.size →
            other < (ledger.forest.detach id).size := by
          intro other hother
          rw [Forest.size_detach]
          exact hother
        exact ⟨_, rfl, attach_forest hdetached id parent,
          hdetached.attach (hsize id hid) (hsize parent (hparent parent rfl)) hnone⟩

theorem reaches_add (h : ledger.Consistent) (offset : Int) (form : Form Nat)
    (hparent : ∀ parent, parent? = some parent → parent < ledger.forest.size) :
    Reaches (ledger.add offset form parent?) (ledger.forest.add offset form parent?) := by
  have hsize : (ledger.forest.append offset form).size = ledger.forest.size + 1 :=
    Forest.size_append
  refine reaches_setParent (h.append offset form) ?_ fun parent hsome => ?_
  · rw [hsize]
    exact Nat.lt_succ_self _
  · rw [hsize]
    exact Nat.lt_succ_of_lt (hparent parent hsome)

theorem reaches_addReferences (h : ledger.Consistent) (hid : id < ledger.forest.size)
    (start : Int) (references : List Reference) :
    Reaches (addReferences id start references ledger)
      (ledger.forest.addReferences id start references) := by
  induction references generalizing ledger with
  | nil => exact ⟨ledger, rfl, rfl, h⟩
  | cons reference references ih =>
      obtain ⟨added, hadd, hforest, hconsistent⟩ := reaches_add h (start + reference.position)
        (.variable ('$' :: reference.name) reference.length) fun parent hsome =>
          Option.some.inj hsome ▸ hid
      have hsize : id < added.forest.size := by
        rw [hforest, Forest.size_add]
        exact Nat.lt_succ_of_lt hid
      unfold addReferences
      rw [hadd]
      have hrest := ih hconsistent hsize
      rw [hforest] at hrest
      exact hrest

theorem reaches_create (h : ledger.Consistent) (offset : Int) (form : Form Nat)
    (hparent : ∀ parent, parent? = some parent → parent < ledger.forest.size)
    (htaken : ∀ taken, Forest.takenBy? form = some taken → taken < ledger.forest.size) :
    Reaches (ledger.create offset form parent?) (ledger.forest.create offset form parent?) := by
  obtain ⟨added, hadd, hforest, hconsistent⟩ := reaches_add h offset form hparent
  have hsize : added.forest.size = ledger.forest.size + 1 := by
    rw [hforest, Forest.size_add]
  unfold create Forest.create
  rw [hadd, ← hforest]
  cases form with
  | string raw =>
      dsimp only [bind, Except.bind]
      split
      · exact reaches_addReferences hconsistent (by omega) _ _
      · exact ⟨added, rfl, rfl, hconsistent⟩
  | classParam type parameter default =>
      have hparameter := htaken parameter rfl
      refine reaches_setParent hconsistent (by omega) fun parent hsome => ?_
      obtain rfl := Option.some.inj hsome
      omega
  | _ => exact ⟨added, rfl, rfl, hconsistent⟩

theorem reaches_adopt (h : ledger.Consistent) (hid : id < ledger.forest.size)
    (hchild : child < ledger.forest.size) (change : Form Nat → Form Nat) :
    Reaches (ledger.adopt id child change) (ledger.forest.adopt id child change) := by
  obtain ⟨adopted, hset, hforest, hconsistent⟩ :=
    reaches_setParent h hchild fun parent hsome => Option.some.inj hsome ▸ hid
  unfold adopt Forest.adopt
  rw [hset, ← hforest]
  exact ⟨_, rfl, rfl,
    hconsistent.modify id (fun _ => rfl) (fun _ => rfl) fun _ => rfl⟩

theorem lt_of_all {size : Nat} {id? : Option Nat} (h : id?.all (· < size) = true) :
    ∀ id, id? = some id → id < size := by
  rintro id rfl
  exact of_decide_eq_true h

theorem reaches_adopt_known (h : ledger.Consistent)
    (hknown : (id < ledger.forest.size && child < ledger.forest.size : Bool) = true)
    (change : Form Nat → Form Nat) :
    Reaches (ledger.adopt id child change) (ledger.forest.adopt id child change) := by
  obtain ⟨hid, hchild⟩ := (Bool.and_eq_true _ _).mp hknown
  exact reaches_adopt h (of_decide_eq_true hid) (of_decide_eq_true hchild) change

/-- No check of an edit fails, and the edit leaves the ledger consistent. -/
theorem reaches_apply (h : ledger.Consistent) (edit : Edit)
    (hknown : edit.isKnown ledger.forest.size = true) :
    Reaches (ledger.apply edit) (ledger.forest.apply edit) := by
  have hsettled : ∀ (id : Nat) (change : Element → Element),
      (∀ element, (change element).offset = element.offset) →
      (∀ element, (change element).parent? = element.parent?) →
      (∀ element, (change element).children = element.children) →
      Reaches (.ok { ledger with forest := ledger.forest.modify id change })
        (ledger.forest.modify id change) :=
    fun id change hoffset hparent hchildren =>
      ⟨_, rfl, rfl, h.modify id hoffset hparent hchildren⟩
  cases edit with
  | create offset form parent? =>
      obtain ⟨hparent, htaken⟩ := (Bool.and_eq_true _ _).mp hknown
      exact reaches_create h offset form (lt_of_all hparent) (lt_of_all htaken)
  | setParent id parent? =>
      obtain ⟨hid, hparent⟩ := (Bool.and_eq_true _ _).mp hknown
      exact reaches_setParent h (of_decide_eq_true hid) (lt_of_all hparent)
  | setName id name => exact reaches_adopt_known h hknown _
  | setTitle id title => exact reaches_adopt_known h hknown _
  | addAttribute id added => exact reaches_adopt_known h hknown _
  | setValue id value => exact reaches_adopt_known h hknown _
  | setDefault id default => exact reaches_adopt_known h hknown _
  | setInherits id parent => exact reaches_adopt_known h hknown _
  | setEnd id stop => exact hsettled id _ (fun _ => rfl) (fun _ => rfl) fun _ => rfl
  | appendRaw id text => exact hsettled id _ (fun _ => rfl) (fun _ => rfl) fun _ => rfl
  | rename id name => exact hsettled id _ (fun _ => rfl) (fun _ => rfl) fun _ => rfl
  | setNodeNames id names => exact hsettled id _ (fun _ => rfl) (fun _ => rfl) fun _ => rfl
  | setParams id params => exact hsettled id _ (fun _ => rfl) (fun _ => rfl) fun _ => rfl
  | addCase id arm body => exact hsettled id _ (fun _ => rfl) (fun _ => rfl) fun _ => rfl

/-! ## Rows of edits -/

theorem consistent_empty : empty.Consistent := by
  have hchildren : ∀ parent, empty.forest.childrenOf parent = [] := fun _ => rfl
  have hparents : ∀ child, empty.forest.parentOf? child = none := fun _ => rfl
  refine ⟨fun child parent h => ?_, fun child parent => ?_, fun parent => ?_, fun parent => ?_,
    fun child parent h => ?_⟩
  · rw [hparents] at h
    cases h
  · rw [hchildren, hparents]
    simp
  · rw [hchildren]
    exact List.nodup_nil
  · rw [hchildren]
    exact List.Pairwise.nil
  · rw [hchildren] at h
    cases h

theorem reaches_run (edits : List Edit) (h : ledger.Consistent)
    (hknown : Forest.allKnown ledger.forest edits = true) :
    Reaches (run edits ledger) (edits.foldl Forest.apply ledger.forest) := by
  induction edits generalizing ledger with
  | nil => exact ⟨ledger, rfl, rfl, h⟩
  | cons edit edits ih =>
      obtain ⟨hedit, hrest⟩ := (Bool.and_eq_true _ _).mp hknown
      obtain ⟨after, happly, hforest, hconsistent⟩ := reaches_apply h edit hedit
      rw [← hforest] at hrest
      have hrun := ih hconsistent hrest
      unfold run
      rw [happly]
      rw [List.foldl_cons, ← hforest]
      exact hrun

theorem allKnown_append (forest : Forest) (edits others : List Edit) :
    Forest.allKnown forest (edits ++ others) =
      (Forest.allKnown forest edits &&
        Forest.allKnown (edits.foldl Forest.apply forest) others) := by
  induction edits generalizing forest with
  | nil => rfl
  | cons edit edits ih =>
      rw [List.cons_append, Forest.allKnown, Forest.allKnown, ih, Bool.and_assoc]
      rfl

/-- However elements are made and moved about, each stands just once in the row of its parent
and in no other row, and an element that was moved last has the parent that it was given.  Each
row is in the order of the offsets, and of the attachments where offsets are equal; and no
element is missing where it is to be taken out. -/
theorem run_consistent (edits : List Edit) (hknown : Forest.allKnown .empty edits = true) :
    ∃ ledger, run edits .empty = .ok ledger ∧
      ledger.forest = edits.foldl Forest.apply .empty ∧
      (∀ child parent, (ledger.forest.childrenOf parent).count child =
        if ledger.forest.parentOf? child = some parent then 1 else 0) ∧
      (∀ earlier id parent?, edits = earlier ++ [.setParent id parent?] →
        ledger.forest.parentOf? id = parent?) ∧
      (∀ parent, (ledger.forest.childrenOf parent).Pairwise ledger.Precedes) ∧
      ∀ child parent, child ∈ ledger.forest.childrenOf parent → child ∈ ledger.attached := by
  obtain ⟨ledger, hrun, hforest, hconsistent⟩ := reaches_run edits consistent_empty hknown
  refine ⟨ledger, hrun, hforest, fun child parent => ?_, fun earlier id parent? hlast => ?_,
    hconsistent.ordered, fun child parent => hconsistent.entered child parent⟩
  · split
    · rename_i hparent
      exact List.count_eq_one_of_mem (hconsistent.once parent)
        ((hconsistent.owned child parent).2 hparent)
    · rename_i hparent
      exact List.count_eq_zero.2 fun hmem => hparent ((hconsistent.owned child parent).1 hmem)
  · subst hlast
    rw [allKnown_append] at hknown
    have hedit := ((Bool.and_eq_true _ _).mp ((Bool.and_eq_true _ _).mp hknown).2).1
    have hid := of_decide_eq_true ((Bool.and_eq_true _ _).mp hedit).1
    rw [hforest, List.foldl_append]
    exact Forest.parentOf?_setParent hid parent?

/-- Elements that are moved between parents, attached again, exchanged and put below themselves,
with equal offsets among them. -/
def busyEdits : List Edit :=
  [.create 0 (.blob []) none, .create 0 (.blob []) none,
    .create 4 (.identifier ['a']) (some 0), .create 4 (.identifier ['b']) (some 0),
    .create 4 (.string "\"$x\"".toList) (some 1), .setParent 2 (some 1), .setParent 2 (some 0),
    .setParent 3 (some 0), .create 1 (.variableDefinition ['$', 'y'] 2) (some 0),
    .create 1 (.classParam [] 6 none) (some 1), .setDefault 7 4, .setDefault 7 2,
    .setParent 0 (some 1), .setParent 1 (some 0), .setParent 7 (some 7), .setParent 3 none]

/-- The busy row of edits leaves all elements in place. -/
theorem run_consistent_busyEdits :
    Forest.allKnown .empty busyEdits = true ∧
      ∃ ledger, run busyEdits .empty = .ok ledger ∧
        ledger.forest = busyEdits.foldl Forest.apply .empty ∧
        (∀ child parent, (ledger.forest.childrenOf parent).count child =
          if ledger.forest.parentOf? child = some parent then 1 else 0) ∧
        (∀ earlier id parent?, busyEdits = earlier ++ [.setParent id parent?] →
          ledger.forest.parentOf? id = parent?) ∧
        (∀ parent, (ledger.forest.childrenOf parent).Pairwise ledger.Precedes) ∧
        ∀ child parent, child ∈ ledger.forest.childrenOf parent → child ∈ ledger.attached := by
  have hknown : Forest.allKnown .empty busyEdits = true := by decide +kernel
  exact ⟨hknown, run_consistent busyEdits hknown⟩

end Ledger

end Manifest
