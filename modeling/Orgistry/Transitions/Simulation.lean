/-!
# Machines that answer alike

A machine answers every call and goes on from the state that the call leaves.  Two
machines that agree on each call in related states agree on every run of such calls.
-/

namespace Orgistry.Transitions

variable {State State' Call Answer : Type}

/-- What the calls of a run are answered. -/
def answersOf (step : State → Call → Answer × State) : State → List Call → List Answer
  | _, [] => []
  | s, call :: calls => (step s call).1 :: answersOf step (step s call).2 calls

/-- The state that a run leaves. -/
def stateAfter (step : State → Call → Answer × State) : State → List Call → State
  | s, [] => s
  | s, call :: calls => stateAfter step (step s call).2 calls

/-- Every call of the run comes in a state that allows it. -/
def EveryCall (step : State → Call → Answer × State) (Allowed : State → Call → Prop) :
    State → List Call → Prop
  | _, [] => True
  | s, call :: calls => Allowed s call ∧ EveryCall step Allowed (step s call).2 calls

/-- Both machines answer the call alike and leave related states. -/
def Agree (step : State → Call → Answer × State) (step' : State' → Call → Answer × State')
    (Related : State → State' → Prop) (s : State) (s' : State') (call : Call) : Prop :=
  (step s call).1 = (step' s' call).1 ∧ Related (step s call).2 (step' s' call).2

variable {step : State → Call → Answer × State} {step' : State' → Call → Answer × State'}
variable {Related : State → State' → Prop} {Allowed : State → Call → Prop}

theorem EveryCall.take {s : State} {calls : List Call} (h : EveryCall step Allowed s calls)
    (n : Nat) : EveryCall step Allowed s (calls.take n) := by
  induction calls generalizing s n with
  | nil =>
      rw [List.take_nil]
      trivial
  | cons call calls ih =>
      cases n with
      | zero => trivial
      | succ n => exact ⟨h.1, ih h.2 n⟩

/-- Agreement on each allowed call is agreement on each run of allowed calls. -/
theorem agree_run
    (hstep : ∀ s s' call, Related s s' → Allowed s call → Agree step step' Related s s' call)
    {s : State} {s' : State'} (hrelated : Related s s') {calls : List Call}
    (hcalls : EveryCall step Allowed s calls) :
    answersOf step s calls = answersOf step' s' calls ∧
      Related (stateAfter step s calls) (stateAfter step' s' calls) := by
  induction calls generalizing s s' with
  | nil => exact ⟨rfl, hrelated⟩
  | cons call calls ih =>
      obtain ⟨hanswer, hnext⟩ := hstep s s' call hrelated hcalls.1
      obtain ⟨hanswers, hlast⟩ := ih hnext hcalls.2
      exact ⟨by rw [answersOf, answersOf, hanswer, hanswers], hlast⟩

end Orgistry.Transitions
