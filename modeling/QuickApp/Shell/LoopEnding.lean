import QuickApp.Shell.AppLoop
import QuickApp.Shell.Ending
import QuickApp.TaskQueue.Progress

/-!
# The end of the application loop

The task queue adds steps to the teardown and gives it something to wait for:
the application thread leaves its loop only between two callbacks, and closes
it only when the queue is closed.  Still nothing hangs.  The tasks that are
there run out when nobody posts any more, and a try to close the loop that
comes too early is a failed one of the 200.
-/

namespace QuickApp.Shell.AppLoop

variable {Thread Task : Type}

/-- A step of the two threads and of the tasks, not a call of the framework or
a new post. -/
def isOwnStep : Step Thread Task → Bool
  | .teardown event => event.isOwn
  | .queue .closed => true
  | .queue action => TaskQueue.isLoopStep action

/-- Nobody begins to post, and of the calls inside `PostTask` only that of the
running task goes on. -/
def isUnposted : Step Thread Task → Bool
  | .queue (.postTask _ _) => false
  | .queue (.push (some _)) => false
  | _ => true

namespace State

variable (state : State Thread Task)

/-- The close callback is still to come. -/
def closesLeft : Nat :=
  if state.queue.handle = .closed then 0 else 1

/-- The steps left of both threads, of the tasks and of the handle. -/
def stepsLeft : Nat :=
  state.teardown.stepsLeft + TaskQueue.stepsLeft state.queue + state.closesLeft

/-- The teardown has ended, or the queue was destroyed on a foreign thread. -/
def Ended (framework : Framework) : Prop :=
  state.foreignClose = true ∨ Teardown.Ended framework state.teardown

end State

variable [DecidableEq Thread]

omit [DecidableEq Thread] in
private theorem closesLeft_of_open {state : State Thread Task}
    (open_ : state.queue.handle ≠ .closed) : state.closesLeft = 1 :=
  if_neg open_

private theorem stepsLeft_teardown {state : State Thread Task}
    (linked : Linked state) {event : Teardown.Event}
    (isEnabled : state.teardown.Enabled event) :
    (state.next (.teardown event)).stepsLeft +
        (if isOwnStep (Step.teardown event : Step Thread Task) then 1 else 0) ≤
      state.stepsLeft := by
  have threads := Teardown.stepsLeft_next state.teardown event isEnabled
  have queue : TaskQueue.stepsLeft (state.next (.teardown event)).queue =
        TaskQueue.stepsLeft state.queue ∧
      (state.next (.teardown event)).closesLeft = state.closesLeft := by
    rcases teardown_cases state event with ⟨_, queue⟩ |
      ⟨_, before, _, queue⟩ | ⟨_, _, queue⟩
    · rw [State.closesLeft, State.closesLeft, queue]
      exact ⟨rfl, rfl⟩
    · have wasOpen : state.queue.handle ≠ .closed := by
        rw [linked.active before]
        exact fun impossible => by cases impossible
      have isOpen : (state.next (.teardown event)).queue.handle ≠ .closed := by
        rw [queue]
        exact fun impossible => by cases impossible
      rw [closesLeft_of_open wasOpen, closesLeft_of_open isOpen, queue]
      exact ⟨rfl, rfl⟩
    · rw [State.closesLeft, State.closesLeft, queue]
      exact ⟨rfl, rfl⟩
  have own : isOwnStep (Step.teardown event : Step Thread Task) =
    event.isOwn := rfl
  have teardown : (state.next (.teardown event)).teardown =
    state.teardown.next event := rfl
  rw [State.stepsLeft, State.stepsLeft, queue.1, queue.2, own, teardown]
  omega

private theorem closesLeft_queue (state : State Thread Task)
    {action : TaskQueue.Action Thread Task}
    (taken : isTaken state.teardown.appThread action)
    (other : action ≠ .closed) :
    (state.next (.queue action)).closesLeft = state.closesLeft := by
  rw [State.closesLeft, State.closesLeft, State.next,
    ((handle_queue state.queue taken).1 other).1]

private theorem stepsLeft_queue {state : State Thread Task}
    {action : TaskQueue.Action Thread Task}
    (isEnabled : state.Enabled (.queue action))
    (unposted : isUnposted (.queue action)) :
    (state.next (.queue action)).stepsLeft + 1 ≤ state.stepsLeft := by
  obtain ⟨_, _, queueEnabled, taken⟩ := isEnabled
  have loopStep : TaskQueue.isLoopStep action →
      (state.next (.queue action)).stepsLeft + 1 ≤ state.stepsLeft := by
    intro loopStep
    have lowered := TaskQueue.stepsLeft_next state.queue action queueEnabled
      loopStep
    have other : action ≠ .closed := by
      rintro rfl
      cases loopStep
    rw [State.stepsLeft, State.stepsLeft, closesLeft_queue state taken other]
    simp only [State.next]
    omega
  cases action with
  | closed =>
      have wasOpen : state.queue.handle ≠ .closed := by
        rw [queueEnabled.1]
        exact fun impossible => by cases impossible
      have isClosed : (state.next (.queue .closed)).closesLeft = 0 := rfl
      have same : TaskQueue.stepsLeft (state.next (.queue .closed)).queue =
        TaskQueue.stepsLeft state.queue := rfl
      rw [State.stepsLeft, State.stepsLeft, closesLeft_of_open wasOpen,
        isClosed, same]
      exact Nat.le_refl _
  | postTask caller task => cases unposted
  | push caller =>
      cases caller with
      | some thread => cases unposted
      | none => exact loopStep rfl
  | destroy => cases taken
  | closeLoop => cases taken
  | _ => exact loopStep rfl

private theorem stepsLeft_next {state : State Thread Task}
    (linked : Linked state) {step : Step Thread Task}
    (isEnabled : state.Enabled step) (unposted : isUnposted step) :
    (state.next step).stepsLeft + (if isOwnStep step then 1 else 0) ≤
      state.stepsLeft := by
  cases step with
  | teardown event => exact stepsLeft_teardown linked isEnabled.2.1
  | queue action =>
      have lowered := stepsLeft_queue isEnabled unposted
      split
      · exact lowered
      · omega

omit [DecidableEq Thread] in
private theorem progress_of_busy {state : State Thread Task}
    (linked : Linked state) (own : state.foreignClose = false)
    (running : state.teardown.aborted = false)
    (busy : ¬state.queue.loop.isIdle) :
    ∃ step, isOwnStep step ∧ state.Enabled step ∧ isUnposted step := by
  obtain ⟨action, loopStep, isEnabled⟩ := TaskQueue.progress_of_busy busy
  have inLoop : runsLoop state.teardown.appThread = true := by
    by_contra outside
    exact busy (linked.idle (by simpa using outside))
  have taken : isTaken state.teardown.appThread action := by
    cases action with
    | postTask caller task => rfl
    | push caller => rfl
    | destroy => cases loopStep
    | closeLoop => cases loopStep
    | _ => exact inLoop
  refine ⟨.queue action, ?_, ⟨own, running, isEnabled, taken⟩, ?_⟩
  · cases action with
    | closed => rfl
    | _ => exact loopStep
  · cases action with
    | postTask caller task => cases loopStep
    | push caller =>
        cases caller with
        | some thread => cases loopStep
        | none => rfl
    | _ => rfl

/-- A loop that is not closed yet is not closed in this try. -/
private def orFails : Teardown.Event → Teardown.Event
  | .closes => .closeFails
  | event => event

omit [DecidableEq Thread] in
private theorem progress_of_idle {framework : Framework}
    {state : State Thread Task} (own : state.foreignClose = false)
    (ordered : Teardown.Ordered framework state.teardown)
    (open_ : ¬Teardown.Ended framework state.teardown)
    (idle : state.queue.loop.isIdle) :
    ∃ step, isOwnStep step ∧ state.Enabled step ∧ isUnposted step := by
  obtain ⟨event, isOwn, isEnabled⟩ :=
    Teardown.progress_of_ordered ordered open_
  refine ⟨.teardown (orFails event), ?_, ⟨own, ?_, fun _ => idle, ?_, ?_⟩,
    rfl⟩
  · cases event with
    | clientCall call => cases isOwn
    | _ => rfl
  · cases event with
    | closes => exact isEnabled
    | _ => exact isEnabled
  · cases event with
    | clientCall call => cases isOwn
    | _ => exact fun impossible => by cases impossible
  · cases event with
    | _ => exact fun impossible => by cases impossible

section Ending

variable (framework : Framework) (url : List Char)

/-- What holds in every reachable state. -/
structure Standing (state : State Thread Task) : Prop where
  linked : Linked state
  ordered : Teardown.Ordered framework state.teardown

private theorem standing_next (state : State Thread Task)
    (step : Step Thread Task) (standing : Standing framework state)
    (isEnabled : state.Enabled step) :
    Standing framework (state.next step) := by
  refine ⟨linked_next state step standing.linked isEnabled, ?_⟩
  cases step with
  | queue action => exact standing.ordered
  | teardown event =>
      exact Teardown.ordered_next framework state.teardown event
        standing.ordered isEnabled.2.1

variable {framework url}

private theorem standing_of_reachable {state : State Thread Task}
    (reachable : (system Thread Task framework url).Reachable state) :
    Standing framework state :=
  reachable.invariant
    ⟨linked_start framework url, Teardown.ordered_start framework url⟩
    (standing_next framework)

private theorem stepsLeft_teardown_le {state : State Thread Task}
    (reachable : (system Thread Task framework url).Reachable state) :
    state.teardown.stepsLeft ≤ 408 := by
  have seen : (Teardown.system framework url).Reachable state.teardown :=
    (refinesTeardown framework url).reachable_view reachable
  generalize state.teardown = teardown at seen ⊢
  apply seen.invariant
  · exact Nat.le_refl 408
  · intro state event bounded isEnabled
    have lowered := Teardown.stepsLeft_next state event isEnabled
    exact Nat.le_trans (Nat.le_of_add_right_le lowered) bounded

variable (framework url)

/-- The composition from a state on, with nobody posting. -/
def unpostedFrom (state : State Thread Task) :
    System (State Thread Task) (Step Thread Task) :=
  ((system Thread Task framework url).restrict
    fun _ step => isUnposted step).startingAt state

private theorem run_unpostedFrom {start state : State Thread Task}
    {steps : List (Step Thread Task)} :
    (unpostedFrom framework url start).Run state steps ↔
      (system Thread Task framework url).RunWhen
        (fun _ step => isUnposted step) state steps :=
  System.run_startingAt.trans System.run_restrict

/-- The threads and the tasks come to an end together. -/
def endTermination (state : State Thread Task)
    (standing : Standing framework state) :
    Termination (unpostedFrom framework url state) isOwnStep
      (fun state => state.Ended framework) where
  measure := State.stepsLeft
  invariant := Standing framework
  start_invariant := standing
  next_invariant state step standing isEnabled :=
    standing_next framework state step standing isEnabled.1
  next_measure _ _ standing isEnabled :=
    stepsLeft_next standing.linked isEnabled.1 isEnabled.2
  progress state standing open_ := by
    have own : state.foreignClose = false := by
      by_contra foreign
      exact open_ (Or.inl (by simpa using foreign))
    have teardown : ¬Teardown.Ended framework state.teardown :=
      fun ended => open_ (Or.inr ended)
    have running : state.teardown.aborted = false := by
      by_contra aborted
      exact teardown (Or.inl (by simpa using aborted))
    by_cases idle : state.queue.loop.isIdle
    · exact progress_of_idle own standing.ordered teardown idle
    · exact progress_of_busy standing.linked own running idle

end Ending

/-- From every reachable state, with nobody posting any more: the two threads
and the tasks together take a number of steps bounded by the tasks left,
whatever the framework does in between, and can always go on until both
threads are done with a created application, a check has failed or the queue
was destroyed on the wrong thread. -/
theorem composition_ends (framework : Framework) (url : List Char)
    {state : State Thread Task}
    (reachable : (system Thread Task framework url).Reachable state)
    {steps : List (Step Thread Task)}
    (run : (system Thread Task framework url).RunWhen
      (fun _ step => isUnposted step) state steps) :
    steps.countP isOwnStep ≤
        2 * (state.queue.queue.length + state.queue.loop.batch.length) + 420 ∧
      ∃ rest, (∀ step ∈ rest, isOwnStep step) ∧
        (system Thread Task framework url).RunWhen
          (fun _ step => isUnposted step) state (steps ++ rest) ∧
        ((system Thread Task framework url).after state
          (steps ++ rest)).Ended framework := by
  have standing := standing_of_reachable reachable
  have alone : (unpostedFrom framework url state).Run state steps :=
    (run_unpostedFrom framework url).mpr run
  constructor
  · have counted := (endTermination framework url state standing).countP_le
      alone
    have threads := stepsLeft_teardown_le reachable
    have tasks := TaskQueue.stepsLeft_le state.queue
    have handle : state.closesLeft ≤ 1 := by
      rw [State.closesLeft]
      split
      · exact Nat.zero_le 1
      · exact Nat.le_refl 1
    have total : (endTermination framework url state standing).measure
        (unpostedFrom framework url state).start =
      state.teardown.stepsLeft + TaskQueue.stepsLeft state.queue +
        state.closesLeft := rfl
    rw [total] at counted
    omega
  · obtain ⟨rest, isOwn, whole, ended⟩ :=
      (endTermination framework url state standing).completes alone
    exact ⟨rest, isOwn, (run_unpostedFrom framework url).mp whole, ended⟩

/-- A task is being executed, another one waits, and the loop is asked to
return. -/
theorem composition_ends_busy :
    let state := (system Unit Nat plainFramework []).after
      (system Unit Nat plainFramework []).start
      [.queue (.postTask (some ()) 7), .queue (.push (some ())),
        .queue .wake, .queue .drop, .queue .call,
        .queue (.postTask (some ()) 8), .queue (.push (some ())),
        .teardown .stop]
    ∃ rest, (∀ step ∈ rest, isOwnStep step) ∧
      (system Unit Nat plainFramework []).RunWhen
        (fun _ step => isUnposted step) state
          (.teardown destroyEvent :: rest) ∧
      ((system Unit Nat plainFramework []).after state
        (.teardown destroyEvent :: rest)).Ended plainFramework := by
  intro state
  have reachable : (system Unit Nat plainFramework []).Reachable state :=
    ⟨_, by decide, rfl⟩
  have run : (system Unit Nat plainFramework []).RunWhen
      (fun _ step => isUnposted step) state [.teardown destroyEvent] := by
    decide
  exact (composition_ends plainFramework [] reachable run).2

end QuickApp.Shell.AppLoop
