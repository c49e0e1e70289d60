/-!
# Runs of a transition function

Properties of every state that a list of events passes through, and of every step taken from
one.  A run ends at an event that cannot happen.
-/

namespace Orgistry.Transitions

variable {State Event : Type} (step : State → Event → Option State)

/-- The property holds in every state of the run, the first and the last among them. -/
def EveryState (P : State → Prop) : State → List Event → Prop
  | s, [] => P s
  | s, event :: events => P s ∧ ∀ s', step s event = some s' → EveryState P s' events

/-- Every step of the run has the property. -/
def EveryStep (Q : State → Event → Prop) : State → List Event → Prop
  | _, [] => True
  | s, event :: events =>
      ∀ s', step s event = some s' → Q s event ∧ EveryStep Q s' events

variable {step} {P Inv : State → Prop} {Q : State → Event → Prop} {s : State} {events : List Event}

theorem everyState_cons_none {event : Event} (h : step s event = none) :
    EveryState step P s (event :: events) ↔ P s := by
  simp [EveryState, h]

theorem everyState_cons_some {event : Event} {s' : State} (h : step s event = some s') :
    EveryState step P s (event :: events) ↔ P s ∧ EveryState step P s' events := by
  simp [EveryState, h]

instance EveryState.decidable [DecidablePred P] :
    (s : State) → (events : List Event) → Decidable (EveryState step P s events)
  | s, [] => inferInstanceAs (Decidable (P s))
  | s, event :: events =>
      match h : step s event with
      | none => decidable_of_iff (P s) (everyState_cons_none h).symm
      | some s' =>
          have := EveryState.decidable s' events
          decidable_of_iff (P s ∧ EveryState step P s' events) (everyState_cons_some h).symm

theorem EveryState.first (h : EveryState step P s events) : P s := by
  cases events with
  | nil => exact h
  | cons event events => exact h.1

theorem EveryState.mono {P' : State → Prop} (hmono : ∀ s, P s → P' s)
    (h : EveryState step P s events) : EveryState step P' s events := by
  induction events generalizing s with
  | nil => exact hmono s h
  | cons event events ih => exact ⟨hmono s h.1, fun s' hs' => ih (h.2 s' hs')⟩

/-- What every step of the wanted kind keeps holds along a run of such steps. -/
theorem EveryState.of_steps
    (hstep : ∀ s event s', Inv s → Q s event → step s event = some s' → Inv s') (hs : Inv s)
    (h : EveryStep step Q s events) : EveryState step Inv s events := by
  induction events generalizing s with
  | nil => exact hs
  | cons event events ih =>
      refine ⟨hs, fun s' hs' => ?_⟩
      obtain ⟨hQ, hrest⟩ := h s' hs'
      exact ih (hstep s event s' hs hQ hs') hrest

/-- What every step keeps holds along every run. -/
theorem EveryState.of_invariant (hstep : ∀ s event s', Inv s → step s event = some s' → Inv s')
    (hs : Inv s) (events : List Event) : EveryState step Inv s events := by
  induction events generalizing s with
  | nil => exact hs
  | cons event events ih => exact ⟨hs, fun s' hs' => ih (hstep s event s' hs hs')⟩

theorem EveryStep.of_states (hstep : ∀ s event s', P s → P s' → step s event = some s' → Q s event)
    (h : EveryState step P s events) : EveryStep step Q s events := by
  induction events generalizing s with
  | nil => trivial
  | cons event events ih =>
      intro s' hs'
      have hrest := h.2 s' hs'
      exact ⟨hstep s event s' h.1 hrest.first hs', ih hrest⟩

end Orgistry.Transitions
