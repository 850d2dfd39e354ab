import Manifest.Tree.Forest

/-!
# What moves do to a forest

An element is moved by taking it out of the row of one parent and putting it into the row of
another.  Each such step is told by what it does to parents, rows and offsets; all else stays.
-/

namespace Manifest

namespace Forest

variable {forest : Forest} {id other parent : Nat} {change : Element → Element}

/-! ## Changes of one element -/

theorem get?_modify (forest : Forest) (id other : Nat) (change : Element → Element) :
    (forest.modify id change).get? other =
      if id = other then (forest.get? other).map change else forest.get? other := by
  unfold get? modify
  rw [List.getElem?_modify]
  split <;> simp

@[simp]
theorem size_modify (forest : Forest) (id : Nat) (change : Element → Element) :
    (forest.modify id change).size = forest.size :=
  List.length_modify _ _ _

theorem get?_of_lt (h : id < forest.size) : ∃ element, forest.get? id = some element :=
  ⟨_, List.getElem?_eq_getElem h⟩

theorem lt_of_parentOf? (h : forest.parentOf? id = some parent) : id < forest.size := by
  unfold parentOf? at h
  obtain ⟨element, helement, -⟩ := Option.bind_eq_some_iff.1 h
  exact (List.getElem?_eq_some_iff.1 helement).1

theorem map_get?_modify {α : Type} (field : Element → α)
    (h : ∀ element, field (change element) = field element) (id other : Nat) :
    ((forest.modify id change).get? other).map field = (forest.get? other).map field := by
  rw [get?_modify]
  split
  · rw [Option.map_map]
    exact congrArg (fun f => (forest.get? other).map f) (funext h)
  · rfl

theorem offsetOf_modify (forest : Forest)
    (h : ∀ element, (change element).offset = element.offset) (id : Nat) :
    (forest.modify id change).offsetOf = forest.offsetOf :=
  funext fun other => congrArg (·.getD 0) (map_get?_modify Element.offset h id other)

theorem childrenOf_modify (forest : Forest)
    (h : ∀ element, (change element).children = element.children) (id : Nat) :
    (forest.modify id change).childrenOf = forest.childrenOf :=
  funext fun other => congrArg (·.getD []) (map_get?_modify Element.children h id other)

theorem parentOf?_eq_join (forest : Forest) (id : Nat) :
    forest.parentOf? id = ((forest.get? id).map Element.parent?).join := by
  unfold parentOf?
  cases forest.get? id <;> rfl

theorem parentOf?_modify (forest : Forest)
    (h : ∀ element, (change element).parent? = element.parent?) (id : Nat) :
    (forest.modify id change).parentOf? = forest.parentOf? := by
  funext other
  rw [parentOf?_eq_join, parentOf?_eq_join, map_get?_modify Element.parent? h]

/-! ## Parents and rows -/

def withParent (forest : Forest) (id : Nat) (parent? : Option Nat) : Forest :=
  forest.modify id fun element => { element with parent? }

def withRow (forest : Forest) (parent : Nat) (change : List Nat → List Nat) : Forest :=
  forest.modify parent fun element => { element with children := change element.children }

variable {row : List Nat → List Nat} {parent? : Option Nat}

@[simp]
theorem size_withParent : (forest.withParent id parent?).size = forest.size :=
  size_modify _ _ _

@[simp]
theorem size_withRow : (forest.withRow parent row).size = forest.size :=
  size_modify _ _ _

@[simp]
theorem offsetOf_withParent : (forest.withParent id parent?).offsetOf = forest.offsetOf := by
  refine offsetOf_modify forest ?_ id
  exact fun _ => rfl

@[simp]
theorem offsetOf_withRow : (forest.withRow parent row).offsetOf = forest.offsetOf := by
  refine offsetOf_modify forest ?_ parent
  exact fun _ => rfl

@[simp]
theorem childrenOf_withParent : (forest.withParent id parent?).childrenOf = forest.childrenOf := by
  refine childrenOf_modify forest ?_ id
  exact fun _ => rfl

@[simp]
theorem parentOf?_withRow : (forest.withRow parent row).parentOf? = forest.parentOf? := by
  refine parentOf?_modify forest ?_ parent
  exact fun _ => rfl

theorem parentOf?_withParent (hid : id < forest.size) (parent? : Option Nat) (other : Nat) :
    (forest.withParent id parent?).parentOf? other =
      if id = other then parent? else forest.parentOf? other := by
  unfold withParent parentOf?
  rw [get?_modify]
  split
  · rename_i hsame
    obtain ⟨element, helement⟩ := get?_of_lt (hsame ▸ hid)
    rw [helement]
    rfl
  · rfl

theorem childrenOf_withRow (hparent : parent < forest.size) (row : List Nat → List Nat)
    (other : Nat) :
    (forest.withRow parent row).childrenOf other =
      if parent = other then row (forest.childrenOf other) else forest.childrenOf other := by
  unfold withRow childrenOf
  rw [get?_modify]
  split
  · rename_i hsame
    obtain ⟨element, helement⟩ := get?_of_lt (hsame ▸ hparent)
    rw [helement]
    rfl
  · rfl

/-- A change of a row counts for what it does to this row only. -/
theorem withRow_congr {row row' : List Nat → List Nat}
    (h : row (forest.childrenOf parent) = row' (forest.childrenOf parent)) :
    forest.withRow parent row = forest.withRow parent row' := by
  have hget : ∀ other,
      (forest.withRow parent row).get? other = (forest.withRow parent row').get? other := by
    intro other
    unfold withRow
    rw [get?_modify, get?_modify]
    split
    · rename_i hsame
      subst hsame
      cases helement : forest.get? parent with
      | none => rfl
      | some element =>
          have hchildren : forest.childrenOf parent = element.children := by
            unfold childrenOf
            rw [helement]
            rfl
          rw [hchildren] at h
          simp only [Option.map_some, h]
    · rfl
  exact congrArg Forest.mk (List.ext_getElem? hget)

/-! ## Taking elements out and putting them in -/

theorem detach_of_none (h : forest.parentOf? id = none) : forest.detach id = forest := by
  unfold detach
  rw [h]

theorem detach_of_some (h : forest.parentOf? id = some parent) :
    forest.detach id = (forest.withRow parent (·.erase id)).withParent id none := by
  unfold detach
  rw [h]
  rfl

@[simp]
theorem size_detach (forest : Forest) (id : Nat) : (forest.detach id).size = forest.size := by
  cases hparent : forest.parentOf? id with
  | none => rw [detach_of_none hparent]
  | some parent => rw [detach_of_some hparent, size_withParent, size_withRow]

@[simp]
theorem offsetOf_detach (forest : Forest) (id : Nat) :
    (forest.detach id).offsetOf = forest.offsetOf := by
  cases hparent : forest.parentOf? id with
  | none => rw [detach_of_none hparent]
  | some parent => rw [detach_of_some hparent, offsetOf_withParent, offsetOf_withRow]

theorem parentOf?_detach (forest : Forest) (id other : Nat) :
    (forest.detach id).parentOf? other =
      if id = other then none else forest.parentOf? other := by
  cases hparent : forest.parentOf? id with
  | none =>
      rw [detach_of_none hparent]
      split
      · rename_i hsame
        rw [← hsame, hparent]
      · rfl
  | some parent =>
      have hid : id < (forest.withRow parent (·.erase id)).size := by
        rw [size_withRow]
        exact lt_of_parentOf? hparent
      rw [detach_of_some hparent, parentOf?_withParent hid, parentOf?_withRow]

theorem childrenOf_detach (h : ∀ parent, forest.parentOf? id = some parent →
    parent < forest.size) (other : Nat) :
    (forest.detach id).childrenOf other =
      if forest.parentOf? id = some other then (forest.childrenOf other).erase id
      else forest.childrenOf other := by
  cases hparent : forest.parentOf? id with
  | none =>
      rw [detach_of_none hparent]
      rfl
  | some parent =>
      rw [detach_of_some hparent, childrenOf_withParent, childrenOf_withRow (h parent hparent)]
      simp only [Option.some.injEq]

theorem attach_eq (forest : Forest) (id parent : Nat) :
    forest.attach id parent =
      (forest.withParent id (some parent)).withRow parent
        (insertByOffset forest.offsetOf id) :=
  rfl

@[simp]
theorem size_attach (forest : Forest) (id parent : Nat) :
    (forest.attach id parent).size = forest.size := by
  rw [attach_eq, size_withRow, size_withParent]

@[simp]
theorem offsetOf_attach (forest : Forest) (id parent : Nat) :
    (forest.attach id parent).offsetOf = forest.offsetOf := by
  rw [attach_eq, offsetOf_withRow, offsetOf_withParent]

theorem parentOf?_attach (hid : id < forest.size) (parent other : Nat) :
    (forest.attach id parent).parentOf? other =
      if id = other then some parent else forest.parentOf? other := by
  rw [attach_eq, parentOf?_withRow, parentOf?_withParent hid]

theorem childrenOf_attach (hparent : parent < forest.size) (id other : Nat) :
    (forest.attach id parent).childrenOf other =
      if parent = other then insertByOffset forest.offsetOf id (forest.childrenOf other)
      else forest.childrenOf other := by
  rw [attach_eq, childrenOf_withRow (by rw [size_withParent]; exact hparent),
    childrenOf_withParent]

@[simp]
theorem size_setParent (forest : Forest) (id : Nat) (parent? : Option Nat) :
    (forest.setParent id parent?).size = forest.size := by
  unfold setParent
  split
  · rfl
  · split
    · exact size_detach forest id
    · rw [size_attach, size_detach]

theorem parentOf?_setParent (hid : id < forest.size) (parent? : Option Nat) :
    (forest.setParent id parent?).parentOf? id = parent? := by
  unfold setParent
  split
  · assumption
  · split
    · rw [parentOf?_detach, if_pos rfl]
    · rw [parentOf?_attach (by rw [size_detach]; exact hid), if_pos rfl]

/-! ## New elements -/

def append (forest : Forest) (offset : Int) (form : Form Nat) : Forest :=
  ⟨forest.elements ++ [⟨offset, none, form, none, []⟩]⟩

variable {offset : Int} {form : Form Nat}

@[simp]
theorem size_append : (forest.append offset form).size = forest.size + 1 :=
  List.length_append

theorem get?_append (forest : Forest) (offset : Int) (form : Form Nat) (id : Nat) :
    (forest.append offset form).get? id =
      if id = forest.size then some ⟨offset, none, form, none, []⟩ else forest.get? id := by
  unfold get? append
  rcases Nat.lt_trichotomy id forest.size with hless | rfl | hgreater
  · rw [if_neg (Nat.ne_of_lt hless)]
    exact List.getElem?_append_left hless
  · rw [if_pos rfl]
    exact List.getElem?_concat_length
  · have hbeyond : forest.elements.length ≤ id := Nat.le_of_lt hgreater
    rw [if_neg (Nat.ne_of_gt hgreater), List.getElem?_eq_none hbeyond]
    refine List.getElem?_eq_none ?_
    rw [List.length_append]
    exact hgreater

theorem get?_size (forest : Forest) : forest.get? forest.size = none :=
  List.getElem?_eq_none (Nat.le_refl _)

@[simp]
theorem parentOf?_append : (forest.append offset form).parentOf? = forest.parentOf? := by
  funext id
  unfold parentOf?
  rw [get?_append]
  split
  · rename_i hsame
    rw [hsame, get?_size]
    rfl
  · rfl

@[simp]
theorem childrenOf_append : (forest.append offset form).childrenOf = forest.childrenOf := by
  funext id
  unfold childrenOf
  rw [get?_append]
  split
  · rename_i hsame
    rw [hsame, get?_size]
    rfl
  · rfl

@[simp]
theorem size_add (forest : Forest) (offset : Int) (form : Form Nat) (parent? : Option Nat) :
    (forest.add offset form parent?).size = forest.size + 1 :=
  (size_setParent (forest.append offset form) forest.size parent?).trans size_append

theorem offsetOf_append_of_lt (h : id < forest.size) :
    (forest.append offset form).offsetOf id = forest.offsetOf id := by
  unfold offsetOf
  rw [get?_append, if_neg (Nat.ne_of_lt h)]

end Forest

end Manifest
