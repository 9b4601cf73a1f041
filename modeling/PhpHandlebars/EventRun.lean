import Mathlib.Tactic

/-!
# Runs of a partial step function

A system takes one event after another; an event which is not enabled ends
the run.  A condition on the events, each judged in the state it happens in,
carries an invariant through a run.
-/

namespace EventRun

variable {State Event : Type}

/-- The state after the events, when all of them were enabled. -/
def run (step : State → Event → Option State) (state : State)
    (events : List Event) : Option State :=
  events.foldlM step state

def Allowed (step : State → Event → Option State)
    (Ok : State → Event → Prop) : State → List Event → Prop
  | _, [] => True
  | state, event :: rest =>
      Ok state event ∧
        ∀ next, step state event = some next → Allowed step Ok next rest

@[simp] theorem run_nil
    (step : State → Event → Option State) (state : State) :
    run step state [] = some state := rfl

theorem run_cons
    (step : State → Event → Option State) (state : State) (event : Event)
    (rest : List Event) :
    run step state (event :: rest) =
      (step state event).bind fun next => run step next rest := rfl

/-- The run rule: what one allowed event preserves, a run of allowed events
preserves. -/
theorem run_preserves
    {step : State → Event → Option State} {Ok : State → Event → Prop}
    {Inv : State → Prop}
    (hstep : ∀ state event next, Inv state → Ok state event →
      step state event = some next → Inv next)
    {start final : State} {events : List Event}
    (hinv : Inv start) (hallowed : Allowed step Ok start events)
    (hrun : run step start events = some final) :
    Inv final := by
  induction events generalizing start with
  | nil =>
      obtain rfl := Option.some.inj hrun
      exact hinv
  | cons event rest ih =>
      obtain ⟨hok, hrest⟩ := hallowed
      rw [run_cons] at hrun
      obtain ⟨next, hnext, hrun⟩ := Option.bind_eq_some_iff.mp hrun
      exact ih (hstep start event next hinv hok hnext) (hrest next hnext) hrun

theorem allowed_of_forall
    {step : State → Event → Option State} {Ok : State → Event → Prop}
    (hok : ∀ state event, Ok state event) (start : State)
    (events : List Event) : Allowed step Ok start events := by
  induction events generalizing start with
  | nil => trivial
  | cons event rest ih => exact ⟨hok start event, fun next _ => ih next⟩

/-- What every event preserves, every run preserves. -/
theorem run_invariant
    {step : State → Event → Option State} {Inv : State → Prop}
    (hstep : ∀ state event next, Inv state → step state event = some next →
      Inv next)
    {start final : State} {events : List Event}
    (hinv : Inv start) (hrun : run step start events = some final) :
    Inv final := by
  have hallowed : Allowed step (fun _ _ => True) start events :=
    allowed_of_forall (fun _ _ => trivial) start events
  apply run_preserves _ hinv hallowed hrun
  intro state event next hstate _ hnext
  exact hstep state event next hstate hnext

/-! ## Every state of a run -/

/-- A property of all the states a run passes through. -/
def Throughout (step : State → Event → Option State) (Good : State → Prop) :
    State → List Event → Prop
  | state, [] => Good state
  | state, event :: rest =>
      Good state ∧
        ∀ next, step state event = some next → Throughout step Good next rest

theorem throughout_head
    {step : State → Event → Option State} {Good : State → Prop}
    {state : State} {events : List Event}
    (hthroughout : Throughout step Good state events) : Good state := by
  cases events with
  | nil => exact hthroughout
  | cons => exact hthroughout.1

/-- When single events keep a property exactly on a condition, in the states of
an invariant, so do runs. -/
theorem throughout_iff_allowed_of_inv
    {step : State → Event → Option State} {Ok : State → Event → Prop}
    {Inv Good : State → Prop}
    (hstep : ∀ state event, Inv state → Good state → ∃ next,
      step state event = some next ∧ Inv next ∧
        (Good next ↔ Ok state event))
    {start : State} (hinv : Inv start) (hgood : Good start)
    (events : List Event) :
    Throughout step Good start events ↔ Allowed step Ok start events := by
  induction events generalizing start with
  | nil => exact iff_of_true hgood trivial
  | cons event rest ih =>
      obtain ⟨next, hnext, hinv', hiff⟩ := hstep start event hinv hgood
      constructor
      · intro hthroughout
        have hrest := hthroughout.2 next hnext
        have hgood' := throughout_head hrest
        constructor
        · exact hiff.mp hgood'
        · intro other hother
          obtain rfl := Option.some.inj (hnext.symm.trans hother)
          exact (ih hinv' hgood').mp hrest
      · intro hallowed
        have hgood' := hiff.mpr hallowed.1
        constructor
        · exact hgood
        · intro other hother
          obtain rfl := Option.some.inj (hnext.symm.trans hother)
          exact (ih hinv' hgood').mpr (hallowed.2 next hnext)

theorem throughout_iff_allowed
    {step : State → Event → Option State} {Ok : State → Event → Prop}
    {Good : State → Prop}
    (hstep : ∀ state event, Good state → ∃ next,
      step state event = some next ∧ (Good next ↔ Ok state event))
    {start : State} (hgood : Good start) (events : List Event) :
    Throughout step Good start events ↔ Allowed step Ok start events := by
  let Inv : State → Prop := fun _ => True
  have hstep' : ∀ state event, Inv state → Good state → ∃ next,
      step state event = some next ∧ Inv next ∧
        (Good next ↔ Ok state event) := by
    intro state event _ hstate
    obtain ⟨next, hnext, hiff⟩ := hstep state event hstate
    exact ⟨next, hnext, trivial, hiff⟩
  have hinv : Inv start := trivial
  exact throughout_iff_allowed_of_inv hstep' hinv hgood events

end EventRun
