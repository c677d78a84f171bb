import Restitch.Semantics.Transition

/-!
# Work that runs out

The events of a component are of two kinds: those of its environment, and its own.
`System.own` is what the component does by itself from a reachable state. A measure
that every event of its own lowers bounds such runs, and a component that can go on
whenever it is not settled ends settled.
-/

namespace Restitch.Semantics.System

universe u v

variable {State : Type u} {Event : Type v} {system : System State Event}
  {internal : Event → Prop}

/-- The events of a component itself, from any state it can be in. -/
def own (system : System State Event) (internal : Event → Prop) : System State Event where
  Initial := system.Reachable
  Step state event next := system.Step state event next ∧ internal event

/-- A run with one event before it. -/
theorem Steps.prepend {first state next : State} {event : Event} {events : List Event}
    (transition : system.Step first event state) (steps : system.Steps state events next) :
    system.Steps first (event :: events) next := by
  induction steps with
  | refl => exact .step .refl transition
  | step _ last ih => exact ih.step last

/-- A run that goes on after a run. -/
theorem Steps.trans {first state next : State} {earlier later : List Event}
    (before : system.Steps first earlier state) (after : system.Steps state later next) :
    system.Steps first (earlier ++ later) next := by
  induction after with
  | refl => rwa [List.append_nil]
  | step _ last ih =>
      rw [← List.append_assoc]
      exact ih.step last

/-- A run that meets a condition is a run. -/
theorem Steps.of_restrict {allowed : State → Event → Prop} {state next : State}
    {events : List Event} (steps : (system.restrict allowed).Steps state events next) :
    system.Steps state events next := by
  induction steps with
  | refl => exact .refl
  | step _ transition ih => exact ih.step transition.1

/-- What a component reaches by itself is reachable. -/
theorem Steps.of_own {state next : State} {events : List Event}
    (steps : (system.own internal).Steps state events next) :
    system.Steps state events next := by
  induction steps with
  | refl => exact .refl
  | step _ transition ih => exact ih.step transition.1

/-- The invariant rule for what a component does by itself. -/
theorem Steps.own_induction (holds : State → Prop)
    (preserved : ∀ {state event next}, holds state → system.Step state event next →
      internal event → holds next)
    {state next : State} {events : List Event}
    (steps : (system.own internal).Steps state events next) (start : holds state) :
    holds next := by
  induction steps with
  | refl => exact start
  | step _ transition ih => exact preserved ih transition.1 transition.2

/-- The settling rule: a component that can go on from every reachable state that is
not settled, with a measure that each of its own events lowers, does at most as many
events as the measure says, and is settled where it cannot go on. -/
theorem Reachable.settles (settled : State → Prop) (measure : State → Nat)
    (lowered : ∀ {state event next}, system.Reachable state → system.Step state event next →
      internal event → measure next < measure state)
    (progress : ∀ {state}, system.Reachable state → ¬ settled state →
      ∃ event next, internal event ∧ system.Step state event next)
    {state : State} (reached : system.Reachable state) :
    (∀ events next, (system.own internal).Steps state events next →
      events.length + measure next ≤ measure state ∧
        (settled next ∨ ∃ event after, internal event ∧ system.Step next event after)) ∧
    ∃ events next, (system.own internal).Steps state events next ∧ settled next := by
  constructor
  · intro events next steps
    have bounded : events.length + measure next ≤ measure state := by
      induction steps with
      | refl => simp
      | step prior transition ih =>
          have lower := lowered (reached.steps prior.of_own) transition.1 transition.2
          rw [List.length_append, List.length_singleton]
          omega
    refine ⟨bounded, ?_⟩
    by_cases ended : settled next
    · exact .inl ended
    · exact .inr (progress (reached.steps steps.of_own) ended)
  · induction bound : measure state using Nat.strongRecOn generalizing state with
    | ind amount ih =>
        by_cases ended : settled state
        · exact ⟨[], state, .refl, ended⟩
        · obtain ⟨event, next, byItself, transition⟩ := progress reached ended
          obtain ⟨events, last, steps, ended⟩ := ih (measure next)
            (bound ▸ lowered reached transition byItself) (reached.step transition) rfl
          exact ⟨event :: events, last, steps.prepend ⟨transition, byItself⟩, ended⟩

/-- A replay of events of the component itself. -/
theorem own_steps_of_replay {initial : State → Prop} {step : State → Event → Option State}
    {state final : State} (events : List Event) (byItself : ∀ event ∈ events, internal event)
    (ends : replay step state events = some final) :
    ((ofStep initial step).own internal).Steps state events final := by
  induction events generalizing state with
  | nil =>
      cases ends
      exact .refl
  | cons event rest ih =>
      obtain ⟨here, behind⟩ := List.forall_mem_cons.mp byItself
      obtain ⟨next, taken, remaining⟩ := Option.bind_eq_some_iff.mp ends
      exact (ih behind remaining).prepend ⟨taken, here⟩

/-- A replay of events that meet a condition in every state. -/
theorem restrict_steps_of_replay {initial : State → Prop} {step : State → Event → Option State}
    {allowed : State → Event → Prop} {state final : State} (events : List Event)
    (meets : ∀ event ∈ events, ∀ state, allowed state event)
    (ends : replay step state events = some final) :
    ((ofStep initial step).restrict allowed).Steps state events final := by
  induction events generalizing state with
  | nil =>
      cases ends
      exact .refl
  | cons event rest ih =>
      obtain ⟨here, behind⟩ := List.forall_mem_cons.mp meets
      obtain ⟨next, taken, remaining⟩ := Option.bind_eq_some_iff.mp ends
      exact (ih behind remaining).prepend ⟨taken, here state⟩

/-- A guarded replay is a run whose steps meet the condition. -/
theorem restrict_steps_of_guarded {initial : State → Prop}
    {step : State → Event → Option State} {allowed : State → Event → Prop}
    [∀ state event, Decidable (allowed state event)] {state final : State} (events : List Event)
    (ends : replay (guarded step allowed) state events = some final) :
    ((ofStep initial step).restrict allowed).Steps state events final := by
  induction events generalizing state with
  | nil =>
      cases ends
      exact .refl
  | cons event rest ih =>
      obtain ⟨next, taken, remaining⟩ := Option.bind_eq_some_iff.mp ends
      obtain ⟨met, taken⟩ := (Option.ite_none_right_eq_some ..).mp taken
      exact (ih remaining).prepend ⟨taken, met⟩

end Restitch.Semantics.System
