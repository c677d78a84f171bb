import Mathlib.Logic.Relation

/-!
# Labelled transition systems

A `System` is a set of initial states and one labelled step relation. Every
concurrent component of this development is presented as such a system: one
event is one atomic statement, lock-protected access or message, so a run is
one interleaving of the parties. `System.ofStep` builds the relation from an
executable step function, which lets a concrete run be replayed by evaluation.
-/

namespace Restitch.Semantics

universe u v

/-- Initial states and one labelled step relation. -/
structure System (State : Type u) (Event : Type v) where
  Initial : State → Prop
  Step : State → Event → State → Prop

namespace System

variable {State : Type u} {Event : Type v}

/-- Zero or more steps with the events they took, oldest first. -/
inductive Steps (system : System State Event) : State → List Event → State → Prop where
  | refl {state} : Steps system state [] state
  | step {state events middle event next}
      (prior : Steps system state events middle)
      (transition : system.Step middle event next) :
      Steps system state (events ++ [event]) next

/-- A state some run from an initial state ends in. -/
def Reachable (system : System State Event) (state : State) : Prop :=
  ∃ initial events, system.Initial initial ∧ system.Steps initial events state

/-- An initial state is reachable. -/
theorem Reachable.initial {system : System State Event} {state : State}
    (valid : system.Initial state) : system.Reachable state :=
  ⟨state, [], valid, .refl⟩

/-- A step from a reachable state leads to a reachable one. -/
theorem Reachable.step {system : System State Event} {state next : State} {event : Event}
    (reached : system.Reachable state) (transition : system.Step state event next) :
    system.Reachable next := by
  obtain ⟨initial, events, valid, steps⟩ := reached
  exact ⟨initial, events ++ [event], valid, .step steps transition⟩

/-- Reachability extends along a suffix of a run. -/
theorem Reachable.steps {system : System State Event} {state next : State}
    {events : List Event} (reached : system.Reachable state)
    (suffix : system.Steps state events next) : system.Reachable next := by
  induction suffix with
  | refl => exact reached
  | step _ transition ih => exact ih.step transition

/-- The invariant rule: what holds initially and survives every step taken
from a reachable state holds in every reachable state. -/
theorem Reachable.induction {system : System State Event} (holds : State → Prop)
    (initial : ∀ {state}, system.Initial state → holds state)
    (preserved : ∀ {state event next}, system.Reachable state → holds state →
      system.Step state event next → holds next)
    {state : State} (reached : system.Reachable state) : holds state := by
  obtain ⟨start, events, valid, steps⟩ := reached
  have both : system.Reachable state ∧ holds state := by
    induction steps with
    | refl => exact ⟨.initial valid, initial valid⟩
    | step _ transition ih => exact ⟨ih.1.step transition, preserved ih.1 ih.2 transition⟩
  exact both.2

/-- The monotonicity rule: a reflexive and transitive relation that every step
from a reachable state respects relates the two ends of every run suffix. -/
theorem Steps.monotone {system : System State Event} (related : State → State → Prop)
    (refl : ∀ state, related state state)
    (trans : ∀ {a b c}, related a b → related b c → related a c)
    (respected : ∀ {state event next}, system.Reachable state →
      system.Step state event next → related state next)
    {state next : State} {events : List Event} (reached : system.Reachable state)
    (suffix : system.Steps state events next) : related state next := by
  induction suffix with
  | refl => exact refl _
  | step prior transition ih =>
      exact trans ih (respected (reached.steps prior) transition)

/-- The termination rule: a measure that every step lowers bounds the length of
every run. -/
theorem Steps.length_add_le {system : System State Event} (measure : State → Nat)
    (lowered : ∀ {state event next}, system.Step state event next → measure next < measure state)
    {state next : State} {events : List Event} (steps : system.Steps state events next) :
    events.length + measure next ≤ measure state := by
  induction steps with
  | refl => simp
  | step _ transition ih =>
      have lower := lowered transition
      rw [List.length_append, List.length_singleton]
      omega

/-- The completion rule: under a measure that every step lowers, a system that can
go on from every reachable state that is not final reaches a final one. -/
theorem Reachable.exists_final {system : System State Event} (final : State → Prop)
    (measure : State → Nat)
    (lowered : ∀ {state event next}, system.Step state event next → measure next < measure state)
    (progress : ∀ {state}, system.Reachable state → ¬ final state →
      ∃ event next, system.Step state event next)
    {state : State} (reached : system.Reachable state) :
    ∃ last, system.Reachable last ∧ final last := by
  induction bound : measure state using Nat.strongRecOn generalizing state with
  | ind amount ih =>
      by_cases ended : final state
      · exact ⟨state, reached, ended⟩
      · obtain ⟨event, next, transition⟩ := progress reached ended
        exact ih (measure next) (bound ▸ lowered transition) (reached.step transition) rfl

/-- The system whose steps also meet a condition on the state before the step
and the event. Its runs are the runs all of whose steps meet the condition. -/
def restrict (system : System State Event) (allowed : State → Event → Prop) :
    System State Event where
  Initial := system.Initial
  Step state event next := system.Step state event next ∧ allowed state event

/-- Every run that meets the condition is a run. -/
theorem Reachable.of_restrict {system : System State Event}
    {allowed : State → Event → Prop} {state : State}
    (reached : (system.restrict allowed).Reachable state) : system.Reachable state :=
  reached.induction _ (fun valid => .initial valid)
    (fun _ prior transition => prior.step transition.1)

/-- A run that meets a condition meets every weaker one. -/
theorem Reachable.restrict_mono {system : System State Event}
    {allowed weaker : State → Event → Prop} {state : State}
    (weakens : ∀ state event, allowed state event → weaker state event)
    (reached : (system.restrict allowed).Reachable state) :
    (system.restrict weaker).Reachable state :=
  reached.induction _ (fun valid => .initial valid)
    (fun _ prior transition => prior.step ⟨transition.1, weakens _ _ transition.2⟩)

/-- The system of an executable step function that refuses an event with `none`. -/
def ofStep (initial : State → Prop) (step : State → Event → Option State) :
    System State Event where
  Initial := initial
  Step state event next := step state event = some next

/-- Replay a list of events, oldest first. -/
def replay (step : State → Event → Option State) (state : State) :
    List Event → Option State
  | [] => some state
  | event :: rest => (step state event).bind fun next => replay step next rest

/-- A replay that ends is a run with these events. -/
theorem steps_of_replay {initial : State → Prop} {step : State → Event → Option State}
    {start state final : State} {earlier : List Event} (events : List Event)
    (prior : (ofStep initial step).Steps start earlier state)
    (ends : replay step state events = some final) :
    (ofStep initial step).Steps start (earlier ++ events) final := by
  induction events generalizing state earlier with
  | nil =>
      cases ends
      rwa [List.append_nil]
  | cons event rest ih =>
      obtain ⟨next, taken, remaining⟩ := Option.bind_eq_some_iff.mp ends
      have run := ih (prior.step taken) remaining
      rwa [List.append_assoc] at run

/-- A replay that ends is a run. -/
theorem reachable_of_replay {initial : State → Prop} {step : State → Event → Option State}
    {state final : State} (events : List Event)
    (reached : (ofStep initial step).Reachable state)
    (ends : replay step state events = some final) :
    (ofStep initial step).Reachable final := by
  induction events generalizing state with
  | nil =>
      cases ends
      exact reached
  | cons event rest ih =>
      obtain ⟨next, taken, remaining⟩ := Option.bind_eq_some_iff.mp ends
      exact ih (reached.step taken) remaining

/-- A replay of events that meet a condition in every state. -/
theorem reachable_of_allowed {initial : State → Prop} {step : State → Event → Option State}
    {allowed : State → Event → Prop} {state final : State} (events : List Event)
    (reached : ((ofStep initial step).restrict allowed).Reachable state)
    (met : ∀ event ∈ events, ∀ state, allowed state event)
    (ends : replay step state events = some final) :
    ((ofStep initial step).restrict allowed).Reachable final := by
  induction events generalizing state with
  | nil =>
      cases ends
      exact reached
  | cons event rest ih =>
      obtain ⟨here, behind⟩ := List.forall_mem_cons.mp met
      obtain ⟨next, taken, remaining⟩ := Option.bind_eq_some_iff.mp ends
      exact ih (reached.step ⟨taken, here state⟩) behind remaining

/-- Refuse the events that do not meet a condition. -/
def guarded (step : State → Event → Option State) (allowed : State → Event → Prop)
    [∀ state event, Decidable (allowed state event)] (state : State) (event : Event) :
    Option State :=
  if allowed state event then step state event else none

/-- A guarded replay that ends is a run that meets the condition. -/
theorem reachable_of_guarded {initial : State → Prop} {step : State → Event → Option State}
    {allowed : State → Event → Prop} [∀ state event, Decidable (allowed state event)]
    {state final : State} (events : List Event)
    (reached : ((ofStep initial step).restrict allowed).Reachable state)
    (ends : replay (guarded step allowed) state events = some final) :
    ((ofStep initial step).restrict allowed).Reachable final := by
  induction events generalizing state with
  | nil =>
      cases ends
      exact reached
  | cons event rest ih =>
      obtain ⟨next, taken, remaining⟩ := Option.bind_eq_some_iff.mp ends
      obtain ⟨met, taken⟩ := (Option.ite_none_right_eq_some ..).mp taken
      exact ih (reached.step ⟨taken, met⟩) remaining

end System

end Restitch.Semantics
