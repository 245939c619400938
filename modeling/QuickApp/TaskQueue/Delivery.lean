import QuickApp.TaskQueue.Model

/-!
# Delivery of posted tasks

The abstract view of the task queue is a first-in first-out mailbox.  Posting
and starting a task are its two operations; the wake-ups, the local vector of
`_run_task` and the shared queue are all hidden in the list of waiting tasks.
The faithful model refines the mailbox whether or not the queue is destroyed.

That no wake-up is lost is a separate invariant, stated while the handle is
active: a non-empty queue always has a wake-up pending or a `_run_task` on its
way to take it.
-/

namespace QuickApp.TaskQueue

/-- What was sent, what was received and what is still on its way. -/
structure Mailbox (α : Type) where
  sent : List α := []
  received : List α := []
  waiting : List α := []

namespace Mailbox

variable {α : Type}

inductive Operation (α : Type) where
  | send (item : α)
  | receive

/-- Items enter at the back and leave at the front. -/
def next (mailbox : Mailbox α) : Operation α → Mailbox α
  | .send item =>
      { mailbox with
        sent := mailbox.sent ++ [item]
        waiting := mailbox.waiting ++ [item] }
  | .receive =>
      match mailbox.waiting with
      | [] => mailbox
      | item :: rest =>
          { mailbox with
            received := mailbox.received ++ [item]
            waiting := rest }

def system (α : Type) : System (Mailbox α) (Operation α) where
  start := {}
  enabled mailbox operation :=
    match operation with
    | .send _ => True
    | .receive => mailbox.waiting ≠ []
  next := next

/-- First in, first out: what was received and what waits are together the
items sent, in the order they were sent. -/
theorem received_append_waiting {mailbox : Mailbox α}
    (reachable : (system α).Reachable mailbox) :
    mailbox.received ++ mailbox.waiting = mailbox.sent := by
  apply reachable.invariant
  · rfl
  · intro before operation ordered _
    cases operation with
    | send item => simp [system, next, ← ordered]
    | receive =>
        simp only [system, next]
        split
        · exact ordered
        · rename_i item rest waiting
          simp [← ordered, waiting]

end Mailbox

variable {Thread Task : Type} [DecidableEq Thread]

/-- The mailbox behind a state of the task queue. -/
def mailbox (state : State Thread Task) : Mailbox Task :=
  { sent := state.pushed
    received := state.started
    waiting := state.loop.rest ++ state.queue }

/-- Only pushes and calls are visible in the mailbox. -/
def mailboxLabels (state : State Thread Task) :
    Action Thread Task → List (Mailbox.Operation Task)
  | .push caller => (state.callers caller).toList.map .send
  | .call => [.receive]
  | _ => []

private theorem mailbox_step (state : State Thread Task)
    (action : Action Thread Task) (isEnabled : Enabled state action) :
    (Mailbox.system Task).Run (mailbox state) (mailboxLabels state action) ∧
      mailbox (next state action) =
        (Mailbox.system Task).after (mailbox state)
          (mailboxLabels state action) := by
  cases action with
  | postTask caller task =>
      refine ⟨trivial, ?_⟩
      simp only [next, State.checkRunning]
      split <;> rfl
  | push caller =>
      obtain ⟨task, found, result⟩ := next_push isEnabled
      rw [result, mailboxLabels, found]
      refine ⟨⟨trivial, trivial⟩, ?_⟩
      simp only [State.lockedPush]
      split <;>
        simp [mailbox, Mailbox.system, Mailbox.next, State.asyncSend]
  | wake =>
      have idle := loop_of_isIdle isEnabled.2.2
      exact ⟨trivial, by simp [mailbox, mailboxLabels, next, idle,
        LoopState.rest]⟩
  | drop =>
      have entered := loop_of_isEntered isEnabled
      refine ⟨trivial, ?_⟩
      simp only [next, State.dropQueue]
      split <;> simp [mailbox, mailboxLabels, entered, LoopState.rest]
  | call =>
      obtain ⟨task, rest, draining⟩ := loop_of_hasNext isEnabled
      refine ⟨⟨by simp [Mailbox.system, mailbox, draining,
        LoopState.rest], trivial⟩, ?_⟩
      simp [mailbox, mailboxLabels, next, State.callNext, draining,
        LoopState.rest, Mailbox.system, Mailbox.next]
  | erase =>
      obtain ⟨task, rest, running⟩ := loop_of_isInTask isEnabled.1
      refine ⟨trivial, ?_⟩
      simp [mailbox, mailboxLabels, next, State.eraseCurrent, running,
        LoopState.rest]
  | leave =>
      have atEnd := loop_of_atEnd isEnabled
      exact ⟨trivial, by simp [mailbox, mailboxLabels, next, atEnd,
        LoopState.rest]⟩
  | destroy => exact ⟨trivial, rfl⟩
  | closed => exact ⟨trivial, rfl⟩
  | closeLoop => exact ⟨trivial, rfl⟩

/-- The interleaved task queue refines the mailbox, destruction included. -/
def refinesMailbox :
    Refinement (system Thread Task) (Mailbox.system Task) where
  view := mailbox
  labels := mailboxLabels
  invariant := fun _ => True
  start_invariant := trivial
  next_invariant := fun _ _ _ _ => trivial
  start_view := rfl
  step_run := fun state action _ isEnabled =>
    (mailbox_step state action isEnabled).1
  step_view := fun state action _ isEnabled =>
    (mailbox_step state action isEnabled).2

theorem started_append_waiting {state : State Thread Task}
    (reachable : (system Thread Task).Reachable state) :
    state.started ++ (state.loop.rest ++ state.queue) = state.pushed :=
  Mailbox.received_append_waiting (refinesMailbox.reachable_view reachable)

private theorem started_next (state : State Thread Task)
    (action : Action Thread Task)
    (started : state.executed ++ state.loop.current = state.started)
    (isEnabled : Enabled state action) :
    (next state action).executed ++ (next state action).loop.current =
      (next state action).started := by
  cases action with
  | postTask caller task =>
      simp only [next, State.checkRunning]
      split <;> exact started
  | push caller =>
      obtain ⟨task, _, result⟩ := next_push isEnabled
      rw [result, State.lockedPush]
      split <;> exact started
  | wake =>
      rw [loop_of_isIdle isEnabled.2.2] at started
      exact started
  | drop =>
      rw [loop_of_isEntered isEnabled] at started
      simp only [next, State.dropQueue]
      split <;> exact started
  | call =>
      obtain ⟨task, rest, draining⟩ := loop_of_hasNext isEnabled
      simp only [draining, LoopState.current, List.append_nil] at started
      simp [next, State.callNext, draining, LoopState.current, started]
  | erase =>
      obtain ⟨task, rest, running⟩ := loop_of_isInTask isEnabled.1
      simp only [running, LoopState.current] at started
      simp [next, State.eraseCurrent, running, LoopState.current, started]
  | leave =>
      rw [loop_of_atEnd isEnabled] at started
      exact started
  | destroy => exact started
  | closed => exact started
  | closeLoop => exact started

theorem executed_append_current {state : State Thread Task}
    (reachable : (system Thread Task).Reachable state) :
    state.executed ++ state.loop.current = state.started := by
  apply reachable.invariant
  · rfl
  · exact started_next

/-- While the handle is active its data is set, and a non-empty queue has a
wake-up pending or a `_run_task` that has not taken the queue yet. -/
structure Awake (state : State Thread Task) : Prop where
  hasData : state.handle = .active → state.hasData
  awake : state.handle = .active → state.queue ≠ [] →
    state.pending ∨ state.loop.isEntered

theorem awake_start : Awake (system Thread Task).start :=
  ⟨fun _ => rfl, fun _ nonempty => (nonempty rfl).elim⟩

theorem awake_next (state : State Thread Task) (action : Action Thread Task)
    (awake : Awake state) (isEnabled : Enabled state action) :
    Awake (next state action) := by
  obtain ⟨hasData, awake⟩ := awake
  cases action with
  | postTask caller task =>
      simp only [next, State.checkRunning]
      split <;> exact ⟨hasData, awake⟩
  | push caller =>
      obtain ⟨task, _, result⟩ := next_push isEnabled
      rw [result, State.lockedPush]
      split
      · exact ⟨hasData, fun _ _ => Or.inl rfl⟩
      · rename_i notOne
        have nonempty : state.queue ≠ [] := by
          intro empty
          exact notOne (by simp [empty])
        exact ⟨hasData, fun isActive _ => awake isActive nonempty⟩
  | wake => exact ⟨hasData, fun _ _ => Or.inr rfl⟩
  | drop =>
      simp only [next, State.dropQueue]
      split
      · exact ⟨hasData, fun _ nonempty => (nonempty rfl).elim⟩
      · rename_i noData
        refine ⟨hasData, fun isActive => ?_⟩
        exact (noData (hasData isActive)).elim
  | call =>
      obtain ⟨task, rest, draining⟩ := loop_of_hasNext isEnabled
      simp only [draining, LoopState.isEntered] at awake
      simp only [next, State.callNext, draining]
      exact ⟨hasData, awake⟩
  | erase =>
      obtain ⟨task, rest, running⟩ := loop_of_isInTask isEnabled.1
      simp only [running, LoopState.isEntered] at awake
      simp only [next, State.eraseCurrent, running]
      exact ⟨hasData, awake⟩
  | leave =>
      have atEnd := loop_of_atEnd isEnabled
      simp only [atEnd, LoopState.isEntered] at awake
      exact ⟨hasData, awake⟩
  | destroy => constructor <;> intro isActive <;> cases isActive
  | closed => constructor <;> intro isActive <;> cases isActive
  | closeLoop => exact ⟨hasData, awake⟩

theorem awake_of_reachable {state : State Thread Task}
    (reachable : (system Thread Task).Reachable state) : Awake state :=
  reachable.invariant awake_start awake_next

/-- Every interleaving of any number of posting threads with the loop thread:
tasks run in push order and none is lost or run twice; while the queue has not
been destroyed a waiting task always has a wake-up on its way, so the system is
quiet only when every pushed task was executed. -/
theorem postTask_delivers {state : State Thread Task}
    (reachable : (system Thread Task).Reachable state)
    (notDestroyed : state.handle = .active) :
    (state.executed ++ state.loop.batch ++ state.queue = state.pushed ∧
      state.started ++ state.loop.rest ++ state.queue = state.pushed) ∧
    (state.queue ≠ [] → state.pending ∨ state.loop.isEntered) ∧
    (state.pending = false → state.loop.isIdle →
      state.executed = state.pushed) := by
  have awake := awake_of_reachable reachable
  have startedOrder :
      state.started ++ state.loop.rest ++ state.queue = state.pushed := by
    simpa using started_append_waiting reachable
  have executedOrder :
      state.executed ++ state.loop.batch ++ state.queue = state.pushed := by
    rw [LoopState.batch_eq, ← List.append_assoc,
      executed_append_current reachable]
    exact startedOrder
  refine ⟨⟨executedOrder, startedOrder⟩, awake.awake notDestroyed, ?_⟩
  intro notPending isIdle
  have idle := loop_of_isIdle isIdle
  have empty : state.queue = [] := by
    by_contra nonempty
    rcases awake.awake notDestroyed nonempty with pending | entered
    · simp [notPending] at pending
    · simp [idle, LoopState.isEntered] at entered
  simpa [idle, empty, LoopState.batch] using executedOrder

/-- A thread posts task 1, which posts task 2 while it runs; after one more
wake-up both were executed in that order. -/
theorem postTask_delivers_reposted :
    let actions : List (Action (Fin 1) Nat) :=
      [.postTask (some 0) 1, .push (some 0), .wake, .drop, .call,
        .postTask none 2, .push none, .erase, .leave,
        .wake, .drop, .call, .erase, .leave]
    ((system (Fin 1) Nat).after {} actions).executed = [1, 2] := by
  intro actions
  have reachable : (system (Fin 1) Nat).Reachable
      ((system (Fin 1) Nat).after {} actions) :=
    ⟨actions, by decide, rfl⟩
  have delivered := postTask_delivers reachable rfl
  exact delivered.2.2 rfl rfl

end QuickApp.TaskQueue
