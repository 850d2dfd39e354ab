/-!
# Bounded iteration

Loops that go on until a step says that it is the last.  A loop whose steps lower
a measure is given one step more than the measure, and so always ends by itself.
-/

namespace Manifest

inductive Progress (σ : Type) where
  | again (state : σ)
  | done (state : σ)

namespace Progress

def state {σ : Type} : Progress σ → σ
  | .again state => state
  | .done state => state

@[simp]
theorem state_again {σ : Type} (state : σ) : (Progress.again state).state = state :=
  rfl

@[simp]
theorem state_done {σ : Type} (state : σ) : (Progress.done state).state = state :=
  rfl

end Progress

/-- Take steps until one is the last, but `fuel` steps at most. -/
def iterate {σ : Type} (step : σ → Progress σ) : Nat → σ → σ
  | 0, state => state
  | fuel + 1, state =>
      match step state with
      | .again next => iterate step fuel next
      | .done last => last

theorem iterate_again {σ : Type} {step : σ → Progress σ} {fuel : Nat} {state next : σ}
    (h : step state = .again next) : iterate step (fuel + 1) state = iterate step fuel next := by
  rw [iterate, h]

theorem iterate_done {σ : Type} {step : σ → Progress σ} {fuel : Nat} {state last : σ}
    (h : step state = .done last) : iterate step (fuel + 1) state = last := by
  rw [iterate, h]

/-- A property that every step keeps holds at the end of a loop. -/
theorem iterate_invariant {σ : Type} {step : σ → Progress σ} (invariant : σ → Prop)
    (keep : ∀ state, invariant state → invariant (step state).state)
    (fuel : Nat) (state : σ) (h : invariant state) : invariant (iterate step fuel state) := by
  induction fuel generalizing state with
  | zero => exact h
  | succ fuel ih =>
      have hstep := keep state h
      unfold iterate
      cases hcase : step state with
      | again next => exact ih next (by simpa [hcase] using hstep)
      | done last => simpa [hcase] using hstep

/-- A loop whose steps keep a property and lower a measure ends with a last step. -/
theorem iterate_ends {σ : Type} {step : σ → Progress σ} (invariant : σ → Prop)
    (measure : σ → Nat)
    (keep : ∀ state next, invariant state → step state = .again next →
      invariant next ∧ measure next < measure state)
    (fuel : Nat) (state : σ) (h : invariant state) (hfuel : measure state < fuel) :
    ∃ last, invariant last ∧ step last = .done (iterate step fuel state) := by
  induction fuel generalizing state with
  | zero => omega
  | succ fuel ih =>
      unfold iterate
      cases hstep : step state with
      | done last => exact ⟨state, h, hstep⟩
      | again next =>
          obtain ⟨hnext, hless⟩ := keep state next h hstep
          exact ih next hnext (by omega)

/-- From one state a loop goes on to another in `count` steps, none of which is its last. -/
def GoesOn {σ : Type} (step : σ → Progress σ) (count : Nat) (first second : σ) : Prop :=
  ∀ fuel, iterate step (fuel + count) first = iterate step fuel second

section GoesOn

variable {σ : Type} {step : σ → Progress σ} {count more fuel : Nat} {first second third : σ}

theorem GoesOn.refl (step : σ → Progress σ) (state : σ) : GoesOn step 0 state state :=
  fun _ => rfl

theorem goesOn_again (h : step first = .again second) : GoesOn step 1 first second :=
  fun _ => iterate_again h

theorem GoesOn.trans (h : GoesOn step count first second) (h' : GoesOn step more second third) :
    GoesOn step (count + more) first third := by
  intro fuel
  rw [Nat.add_comm count more, ← Nat.add_assoc, h, h']

/-- A loop that goes on to its last step ends with that. -/
theorem GoesOn.iterate_eq (h : GoesOn step count first second) (hdone : step second = .done third)
    (hfuel : count < fuel) : iterate step fuel first = third := by
  obtain ⟨spare, rfl⟩ := Nat.exists_eq_add_of_lt hfuel
  rw [show count + spare + 1 = spare + 1 + count by omega, h, iterate_done hdone]

end GoesOn

end Manifest
