import Mathlib.Logic.Basic

/-!
# Runs of guarded transition systems

A system is a start state, a guard saying which events may happen in a state,
and the state after an event.  A run is a list of events whose guards hold one
after the other, so every statement about reachable states is a statement
about `System.after` of a run.

`System.AllSteps` says that a property of single steps holds at every step of
a list of events.  Guards, side conditions and per-step specifications are all
instances of it, and the rules below move between them.
-/

namespace QuickApp

universe u v w

/-- A deterministic labelled transition system with guards. -/
structure System (σ : Type u) (ε : Type v) where
  start : σ
  enabled : σ → ε → Prop
  next : σ → ε → σ

namespace System

variable {σ : Type u} {ε : Type v} (sys : System σ ε)

/-- The state reached from `state` by a list of events, guards ignored. -/
def after (state : σ) (events : List ε) : σ :=
  events.foldl sys.next state

@[simp] theorem after_nil (state : σ) : sys.after state [] = state := rfl

@[simp] theorem after_cons (state : σ) (event : ε) (events : List ε) :
    sys.after state (event :: events) =
      sys.after (sys.next state event) events := rfl

theorem after_append (state : σ) (first second : List ε) :
    sys.after state (first ++ second) =
      sys.after (sys.after state first) second := by
  simp [after, List.foldl_append]

/-- The property `holds` of a state and the event taken there is true at every
step of the list. -/
def AllSteps (holds : σ → ε → Prop) : σ → List ε → Prop
  | _, [] => True
  | state, event :: events =>
      holds state event ∧ AllSteps holds (sys.next state event) events

instance AllSteps.decidable (holds : σ → ε → Prop)
    [∀ state event, Decidable (holds state event)] :
    ∀ state events, Decidable (sys.AllSteps holds state events)
  | _, [] => .isTrue trivial
  | state, event :: events =>
      have := AllSteps.decidable holds (sys.next state event) events
      inferInstanceAs (Decidable (_ ∧ _))

@[simp] theorem allSteps_nil (holds : σ → ε → Prop) (state : σ) :
    sys.AllSteps holds state [] := trivial

@[simp] theorem allSteps_cons (holds : σ → ε → Prop) (state : σ)
    (event : ε) (events : List ε) :
    sys.AllSteps holds state (event :: events) ↔
      holds state event ∧ sys.AllSteps holds (sys.next state event) events :=
  Iff.rfl

theorem allSteps_append (holds : σ → ε → Prop) (state : σ)
    (first second : List ε) :
    sys.AllSteps holds state (first ++ second) ↔
      sys.AllSteps holds state first ∧
        sys.AllSteps holds (sys.after state first) second := by
  induction first generalizing state with
  | nil => simp
  | cons event first induction => simp [induction, and_assoc]

/-- A run from `state`: each event is enabled where it is taken. -/
def Run (state : σ) (events : List ε) : Prop :=
  sys.AllSteps sys.enabled state events

/-- A run each of whose steps also meets a side condition on the state before
the step. -/
def RunWhen (condition : σ → ε → Prop) (state : σ) (events : List ε) : Prop :=
  sys.AllSteps (fun before event =>
    sys.enabled before event ∧ condition before event) state events

/-- A state some run from the start ends in. -/
def Reachable (state : σ) : Prop :=
  ∃ events, sys.Run sys.start events ∧ sys.after sys.start events = state

/-- A state in which a run ends whose steps all meet the condition. -/
def ReachableWhen (condition : σ → ε → Prop) (state : σ) : Prop :=
  ∃ events, sys.RunWhen condition sys.start events ∧
    sys.after sys.start events = state

variable {sys}

theorem AllSteps.imp {first second : σ → ε → Prop}
    (weaken : ∀ state event, first state event → second state event)
    {state : σ} {events : List ε} (all : sys.AllSteps first state events) :
    sys.AllSteps second state events := by
  induction events generalizing state with
  | nil => trivial
  | cons event events induction =>
      exact ⟨weaken state event all.1, induction all.2⟩

theorem RunWhen.run {condition : σ → ε → Prop} {state : σ} {events : List ε}
    (run : sys.RunWhen condition state events) : sys.Run state events :=
  AllSteps.imp (fun _ _ both => both.1) run

/-- A run each of whose steps also meets a condition. -/
theorem Run.runWhen {condition : σ → ε → Prop} {state : σ} {events : List ε}
    (run : sys.Run state events) (meets : sys.AllSteps condition state events) :
    sys.RunWhen condition state events := by
  induction events generalizing state with
  | nil => trivial
  | cons event events induction =>
      exact ⟨⟨run.1, meets.1⟩, induction run.2 meets.2⟩

/-- An invariant kept by every step that meets the condition holds at the end
of every run whose steps all meet it. -/
theorem RunWhen.invariant {condition : σ → ε → Prop} {invariant : σ → Prop}
    (kept : ∀ state event, invariant state → sys.enabled state event →
      condition state event → invariant (sys.next state event))
    {state : σ} {events : List ε} (initial : invariant state)
    (run : sys.RunWhen condition state events) :
    invariant (sys.after state events) := by
  induction events generalizing state with
  | nil => exact initial
  | cons event events induction =>
      obtain ⟨⟨isEnabled, meets⟩, rest⟩ := run
      exact induction (kept state event initial isEnabled meets) rest

/-- Where the invariant and the condition hold, each step has a property, so
every step of the run has it. -/
theorem RunWhen.allSteps {condition holds : σ → ε → Prop}
    {invariant : σ → Prop}
    (kept : ∀ state event, invariant state → sys.enabled state event →
      condition state event → invariant (sys.next state event))
    (step : ∀ state event, invariant state → sys.enabled state event →
      condition state event → holds state event)
    {state : σ} {events : List ε} (initial : invariant state)
    (run : sys.RunWhen condition state events) :
    sys.AllSteps holds state events := by
  induction events generalizing state with
  | nil => trivial
  | cons event events induction =>
      obtain ⟨⟨isEnabled, meets⟩, rest⟩ := run
      constructor
      · exact step state event initial isEnabled meets
      · exact induction (kept state event initial isEnabled meets) rest

/-- An invariant kept by every enabled step holds at the end of every run. -/
theorem Run.invariant {invariant : σ → Prop}
    (kept : ∀ state event, invariant state → sys.enabled state event →
      invariant (sys.next state event))
    {state : σ} {events : List ε} (initial : invariant state)
    (run : sys.Run state events) : invariant (sys.after state events) := by
  induction events generalizing state with
  | nil => exact initial
  | cons event events induction =>
      exact induction (kept state event initial run.1) run.2

theorem Reachable.invariant {invariant : σ → Prop}
    (initial : invariant sys.start)
    (kept : ∀ state event, invariant state → sys.enabled state event →
      invariant (sys.next state event))
    {state : σ} (reachable : sys.Reachable state) : invariant state := by
  obtain ⟨events, run, rfl⟩ := reachable
  exact run.invariant kept initial

theorem ReachableWhen.invariant {condition : σ → ε → Prop}
    {invariant : σ → Prop} (initial : invariant sys.start)
    (kept : ∀ state event, invariant state → sys.enabled state event →
      condition state event → invariant (sys.next state event))
    {state : σ} (reachable : sys.ReachableWhen condition state) :
    invariant state := by
  obtain ⟨events, run, rfl⟩ := reachable
  exact run.invariant kept initial

theorem ReachableWhen.reachable {condition : σ → ε → Prop} {state : σ}
    (reachable : sys.ReachableWhen condition state) : sys.Reachable state := by
  obtain ⟨events, run, reached⟩ := reachable
  exact ⟨events, run.run, reached⟩

/-- Two step properties that agree wherever an invariant holds agree along
every run that starts in it.  The second may be what keeps the invariant. -/
theorem Run.allSteps_congr {invariant : σ → Prop} {first second : σ → ε → Prop}
    (kept : ∀ state event, invariant state → sys.enabled state event →
      second state event → invariant (sys.next state event))
    (agree : ∀ state event, invariant state → sys.enabled state event →
      (first state event ↔ second state event))
    {state : σ} {events : List ε} (initial : invariant state)
    (run : sys.Run state events) :
    sys.AllSteps first state events ↔ sys.AllSteps second state events := by
  induction events generalizing state with
  | nil => simp
  | cons event events induction =>
      obtain ⟨isEnabled, rest⟩ := run
      rw [allSteps_cons, allSteps_cons, agree state event initial isEnabled]
      apply and_congr_right
      intro meets
      exact induction (kept state event initial isEnabled meets) rest

/-- A property of states that a step keeps exactly when it meets a condition
holds after a run exactly when it holds before it and every step meets the
condition. -/
theorem Run.holds_iff (holds : σ → Prop) {invariant : σ → Prop}
    {condition : σ → ε → Prop}
    (kept : ∀ state event, invariant state → sys.enabled state event →
      invariant (sys.next state event))
    (step : ∀ state event, invariant state → sys.enabled state event →
      (holds (sys.next state event) ↔
        holds state ∧ condition state event))
    {state : σ} {events : List ε} (initial : invariant state)
    (run : sys.Run state events) :
    holds (sys.after state events) ↔
      holds state ∧ sys.AllSteps condition state events := by
  induction events generalizing state with
  | nil => simp
  | cons event events induction =>
      have tails := induction (kept state event initial run.1) run.2
      rw [after_cons, tails, step state event initial run.1, allSteps_cons,
        and_assoc]

/-- A number that every step raises by one exactly where it is counted, up to
a part that depends on the state, has grown by the count at the end. -/
theorem Run.count_eq (measure slack : σ → Nat) (counted : ε → Bool)
    {invariant : σ → Prop}
    (kept : ∀ state event, invariant state → sys.enabled state event →
      invariant (sys.next state event))
    (step : ∀ state event, invariant state → sys.enabled state event →
      measure (sys.next state event) + slack state =
        measure state + slack (sys.next state event) +
          if counted event then 1 else 0)
    {state : σ} {events : List ε} (initial : invariant state)
    (run : sys.Run state events) :
    measure (sys.after state events) + slack state =
      measure state + slack (sys.after state events) +
        events.countP counted := by
  induction events generalizing state with
  | nil => simp
  | cons event events induction =>
      have first := step state event initial run.1
      have rest := induction (kept state event initial run.1) run.2
      rw [after_cons, List.countP_cons]
      omega

theorem run_append {state : σ} {first second : List ε} :
    sys.Run state (first ++ second) ↔
      sys.Run state first ∧ sys.Run (sys.after state first) second :=
  sys.allSteps_append sys.enabled state first second

theorem after_fixed {state : σ} {events : List ε}
    (fixed : ∀ event ∈ events, sys.next state event = state) :
    sys.after state events = state := by
  induction events with
  | nil => rfl
  | cons event events induction =>
      obtain ⟨first, rest⟩ := List.forall_mem_cons.mp fixed
      rw [after_cons, first, induction rest]

theorem run_fixed {state : σ} {events : List ε}
    (fixed : ∀ event ∈ events, sys.next state event = state)
    (isEnabled : ∀ event ∈ events, sys.enabled state event) :
    sys.Run state events := by
  induction events with
  | nil => trivial
  | cons event events induction =>
      obtain ⟨first, rest⟩ := List.forall_mem_cons.mp fixed
      obtain ⟨firstEnabled, restEnabled⟩ := List.forall_mem_cons.mp isEnabled
      refine ⟨firstEnabled, ?_⟩
      rw [first]
      exact induction rest restEnabled

theorem AllSteps.of_forall {holds : σ → ε → Prop} {state : σ}
    {events : List ε} (all : ∀ state, ∀ event ∈ events, holds state event) :
    sys.AllSteps holds state events := by
  induction events generalizing state with
  | nil => trivial
  | cons event events induction =>
      have first := all state event List.mem_cons_self
      refine ⟨first, induction fun state event member => ?_⟩
      exact all state event (List.mem_cons_of_mem _ member)

theorem run_unguarded {state : σ} {events : List ε}
    (isEnabled : ∀ state, ∀ event ∈ events, sys.enabled state event) :
    sys.Run state events :=
  AllSteps.of_forall isEnabled

/-- The same steps, each taken only where it also meets a condition. -/
def restrict (sys : System σ ε) (condition : σ → ε → Prop) : System σ ε where
  start := sys.start
  enabled state event := sys.enabled state event ∧ condition state event
  next := sys.next

@[simp] theorem restrict_start (condition : σ → ε → Prop) :
    (sys.restrict condition).start = sys.start := rfl

@[simp] theorem restrict_after (condition : σ → ε → Prop) (state : σ)
    (events : List ε) :
    (sys.restrict condition).after state events = sys.after state events := rfl

theorem run_restrict {condition : σ → ε → Prop} {state : σ}
    {events : List ε} :
    (sys.restrict condition).Run state events ↔
      sys.RunWhen condition state events := by
  induction events generalizing state with
  | nil => exact Iff.rfl
  | cons event events induction => exact and_congr_right fun _ => induction

theorem reachable_restrict {condition : σ → ε → Prop} {state : σ} :
    (sys.restrict condition).Reachable state ↔
      sys.ReachableWhen condition state := by
  apply exists_congr
  intro events
  exact and_congr_left fun _ => run_restrict

/-- The same steps from another state. -/
def startingAt (sys : System σ ε) (state : σ) : System σ ε :=
  { sys with start := state }

theorem run_startingAt {start state : σ} {events : List ε} :
    (sys.startingAt start).Run state events ↔ sys.Run state events := by
  induction events generalizing state with
  | nil => exact Iff.rfl
  | cons event events induction => exact and_congr_right fun _ => induction

instance Run.decidable [∀ state event, Decidable (sys.enabled state event)]
    (state : σ) (events : List ε) : Decidable (sys.Run state events) :=
  inferInstanceAs (Decidable (sys.AllSteps sys.enabled state events))

instance RunWhen.decidable {condition : σ → ε → Prop}
    [∀ state event, Decidable (sys.enabled state event)]
    [∀ state event, Decidable (condition state event)]
    (state : σ) (events : List ε) :
    Decidable (sys.RunWhen condition state events) :=
  inferInstanceAs (Decidable (sys.AllSteps _ state events))

end System

/-- Every run can be brought to an end: no step raises the measure, the counted
ones lower it, and one of these is enabled as long as the end is not
reached. -/
structure Termination {σ : Type u} {ε : Type v} (sys : System σ ε)
    (counted : ε → Bool) (ended : σ → Prop) where
  measure : σ → Nat
  invariant : σ → Prop
  start_invariant : invariant sys.start
  next_invariant : ∀ state event, invariant state → sys.enabled state event →
    invariant (sys.next state event)
  next_measure : ∀ state event, invariant state → sys.enabled state event →
    measure (sys.next state event) + (if counted event then 1 else 0) ≤
      measure state
  progress : ∀ state, invariant state → ¬ended state →
    ∃ event, counted event ∧ sys.enabled state event

namespace Termination

variable {σ : Type u} {ε : Type v} {sys : System σ ε} {counted : ε → Bool}
  {ended : σ → Prop}

private theorem count_le (termination : Termination sys counted ended)
    {state : σ} {events : List ε} (good : termination.invariant state)
    (run : sys.Run state events) :
    termination.measure (sys.after state events) + events.countP counted ≤
      termination.measure state := by
  induction events generalizing state with
  | nil => simp
  | cons event events induction =>
      have nextGood := termination.next_invariant state event good run.1
      have first := termination.next_measure state event good run.1
      have rest := induction nextGood run.2
      rw [System.after_cons, List.countP_cons]
      omega

/-- No run has more counted events than the measure allows. -/
theorem countP_le (termination : Termination sys counted ended)
    {events : List ε} (run : sys.Run sys.start events) :
    events.countP counted ≤ termination.measure sys.start := by
  have lowered := termination.count_le termination.start_invariant run
  omega

private theorem completes_from (termination : Termination sys counted ended)
    (bound : Nat) {state : σ} (good : termination.invariant state)
    (within : termination.measure state ≤ bound) :
    ∃ rest, (∀ event ∈ rest, counted event) ∧ sys.Run state rest ∧
      ended (sys.after state rest) := by
  by_cases isEnd : ended state
  · exact ⟨[], by simp, trivial, isEnd⟩
  · obtain ⟨event, isCounted, isEnabled⟩ :=
      termination.progress state good isEnd
    have lowered := termination.next_measure state event good isEnabled
    rw [if_pos isCounted] at lowered
    cases bound with
    | zero => omega
    | succ bound =>
        have nextGood :=
          termination.next_invariant state event good isEnabled
        obtain ⟨rest, allCounted, run, reached⟩ :=
          termination.completes_from bound nextGood (by omega)
        exact ⟨event :: rest,
          List.forall_mem_cons.mpr ⟨isCounted, allCounted⟩,
          ⟨isEnabled, run⟩, reached⟩

/-- Every run can be continued to its end by counted events. -/
theorem completes (termination : Termination sys counted ended)
    {events : List ε} (run : sys.Run sys.start events) :
    ∃ rest, (∀ event ∈ rest, counted event) ∧
      sys.Run sys.start (events ++ rest) ∧
      ended (sys.after sys.start (events ++ rest)) := by
  have good := run.invariant termination.next_invariant
    termination.start_invariant
  obtain ⟨rest, allCounted, continued, isEnd⟩ :=
    termination.completes_from _ good (Nat.le_refl _)
  refine ⟨rest, allCounted, System.run_append.mpr ⟨run, continued⟩, ?_⟩
  rw [System.after_append]
  exact isEnd

end Termination

/-- The events of another system that a list of events stands for. -/
def System.relabel {σ : Type u} {ε : Type v} {α : Type*} (sys : System σ ε)
    (labels : σ → ε → List α) : σ → List ε → List α
  | _, [] => []
  | state, event :: events =>
      labels state event ++ sys.relabel labels (sys.next state event) events

/-- A forward simulation of `concrete` by `abstract` between related states:
each concrete event is matched by a list of abstract events, possibly none. -/
structure Simulation {σ : Type u} {ε : Type v} {τ : Type w} {α : Type*}
    (concrete : System σ ε) (abstract : System τ α) where
  related : σ → τ → Prop
  labels : σ → ε → List α
  start_related : related concrete.start abstract.start
  step_run : ∀ state view event, related state view →
    concrete.enabled state event → abstract.Run view (labels state event)
  step_related : ∀ state view event, related state view →
    concrete.enabled state event →
    related (concrete.next state event)
      (abstract.after view (labels state event))

namespace Simulation

variable {σ : Type u} {ε : Type v} {τ : Type w} {α : Type*}
  {concrete : System σ ε} {abstract : System τ α}

private theorem run_between (simulation : Simulation concrete abstract)
    {state : σ} {view : τ} {events : List ε}
    (related : simulation.related state view)
    (run : concrete.Run state events) :
    abstract.Run view (concrete.relabel simulation.labels state events) ∧
      simulation.related (concrete.after state events)
        (abstract.after view
          (concrete.relabel simulation.labels state events)) := by
  induction events generalizing state view with
  | nil => exact ⟨trivial, related⟩
  | cons event events induction =>
      obtain ⟨isEnabled, rest⟩ := run
      have stepRun := simulation.step_run state view event related isEnabled
      have stepRelated :=
        simulation.step_related state view event related isEnabled
      obtain ⟨restRun, restRelated⟩ := induction stepRelated rest
      refine ⟨System.run_append.mpr ⟨stepRun, restRun⟩, ?_⟩
      rw [System.relabel, System.after_append]
      exact restRelated

/-- A run is simulated by the run of its labels, up to related states. -/
theorem run_related (simulation : Simulation concrete abstract)
    {events : List ε} (run : concrete.Run concrete.start events) :
    abstract.Run abstract.start
        (concrete.relabel simulation.labels concrete.start events) ∧
      simulation.related (concrete.after concrete.start events)
        (abstract.after abstract.start
          (concrete.relabel simulation.labels concrete.start events)) :=
  simulation.run_between simulation.start_related run

end Simulation

/-- A forward simulation of `concrete` by `abstract`: each concrete event is
matched by a list of abstract events, possibly none. -/
structure Refinement {σ : Type u} {ε : Type v} {τ : Type w} {α : Type*}
    (concrete : System σ ε) (abstract : System τ α) where
  view : σ → τ
  labels : σ → ε → List α
  invariant : σ → Prop
  start_invariant : invariant concrete.start
  next_invariant : ∀ state event, invariant state →
    concrete.enabled state event → invariant (concrete.next state event)
  start_view : view concrete.start = abstract.start
  step_run : ∀ state event, invariant state → concrete.enabled state event →
    abstract.Run (view state) (labels state event)
  step_view : ∀ state event, invariant state → concrete.enabled state event →
    view (concrete.next state event) =
      abstract.after (view state) (labels state event)

namespace Refinement

variable {σ : Type u} {ε : Type v} {τ : Type w} {α : Type*}
  {concrete : System σ ε} {abstract : System τ α}

/-- The simulation between a state and its view. -/
def toSimulation (refinement : Refinement concrete abstract) :
    Simulation concrete abstract where
  related state view :=
    refinement.invariant state ∧ refinement.view state = view
  labels := refinement.labels
  start_related := ⟨refinement.start_invariant, refinement.start_view⟩
  step_run := by
    rintro state _ event ⟨good, rfl⟩ isEnabled
    exact refinement.step_run state event good isEnabled
  step_related := by
    rintro state _ event ⟨good, rfl⟩ isEnabled
    exact ⟨refinement.next_invariant state event good isEnabled,
      refinement.step_view state event good isEnabled⟩

/-- Every concrete run is seen as an abstract run. -/
theorem run_view (refinement : Refinement concrete abstract)
    {events : List ε} (run : concrete.Run concrete.start events) :
    ∃ abstractEvents, abstract.Run abstract.start abstractEvents ∧
      refinement.view (concrete.after concrete.start events) =
        abstract.after abstract.start abstractEvents := by
  obtain ⟨abstractRun, _, seen⟩ := refinement.toSimulation.run_related run
  exact ⟨_, abstractRun, seen⟩

/-- Every reachable state is seen as a reachable abstract state. -/
theorem reachable_view (refinement : Refinement concrete abstract)
    {state : σ} (reachable : concrete.Reachable state) :
    abstract.Reachable (refinement.view state) := by
  obtain ⟨events, run, rfl⟩ := reachable
  obtain ⟨abstractEvents, abstractRun, seen⟩ := refinement.run_view run
  exact ⟨abstractEvents, abstractRun, seen.symm⟩

end Refinement

end QuickApp
