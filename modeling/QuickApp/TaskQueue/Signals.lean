import QuickApp.TaskQueue.Delivery

/-!
# Wake-ups and batches

`PostTask` sends only when the size became one, and `_run_task` empties the
queue before it calls a task.  So there is one `uv_async_send` for each
batch: no wake-up finds the queue empty, and none is sent for a task that an
earlier one takes along.

A batch is what the queue held when it was taken.  Tasks posted while it runs,
by its own tasks too, wait for the next one, so `_run_task` returns after as
many calls as there were tasks.
-/

namespace QuickApp.TaskQueue

variable {Thread Task : Type} [DecidableEq Thread]

/-- A pending flag and an entered `_run_task` exclude each other and stand for
a queue with tasks; while the loop is inside `_run_task` before the move, the
handle has its data. -/
structure Signalled (state : State Thread Task) : Prop where
  pending : state.pending → state.queue ≠ [] ∧ ¬state.loop.isEntered
  entered : state.loop.isEntered → state.queue ≠ [] ∧ state.hasData
  active : state.handle = .active → state.hasData

theorem signalled_start : Signalled (system Thread Task).start where
  pending := by simp [system]
  entered := by simp [system, LoopState.isEntered]
  active := by simp [system]

omit [DecidableEq Thread] in
private theorem signalled_of_same {state result : State Thread Task}
    (signalled : Signalled state) (queue : result.queue = state.queue)
    (pending : result.pending = state.pending)
    (loop : result.loop.isEntered → state.loop.isEntered)
    (hasData : result.hasData = state.hasData)
    (handle : result.handle = .active → state.handle = .active) :
    Signalled result := by
  constructor
  · intro isPending
    rw [pending] at isPending
    obtain ⟨nonempty, notEntered⟩ := signalled.pending isPending
    rw [queue]
    exact ⟨nonempty, fun entered => notEntered (loop entered)⟩
  · intro entered
    rw [queue, hasData]
    exact signalled.entered (loop entered)
  · intro isActive
    rw [hasData]
    exact signalled.active (handle isActive)

private theorem signalled_push {state : State Thread Task}
    (signalled : Signalled state) (caller : Option Thread) (task : Task) :
    Signalled (state.lockedPush caller task) := by
  rw [State.lockedPush]
  split
  · rename_i becameOne
    have empty : state.queue = [] := by simpa using becameOne
    have notEntered : ¬state.loop.isEntered := fun entered =>
      (signalled.entered entered).1 empty
    refine ⟨fun _ => ⟨by simp [State.asyncSend], notEntered⟩,
      fun entered => (notEntered entered).elim, signalled.active⟩
  · refine ⟨fun pending => ⟨by simp, (signalled.pending pending).2⟩,
      fun entered => ⟨by simp, (signalled.entered entered).2⟩,
      signalled.active⟩

theorem signalled_next (state : State Thread Task)
    (action : Action Thread Task) (signalled : Signalled state)
    (isEnabled : Enabled state action) : Signalled (next state action) := by
  cases action with
  | postTask caller task =>
      simp only [next, State.checkRunning]
      split
      · exact signalled_of_same signalled rfl rfl id rfl id
      · exact signalled
  | push caller =>
      obtain ⟨task, _, result⟩ := next_push isEnabled
      rw [result]
      exact signalled_push signalled caller task
  | wake =>
      obtain ⟨isPending, isActive, _⟩ := isEnabled
      have nonempty := (signalled.pending isPending).1
      have hasData := signalled.active isActive
      exact ⟨by simp [next], fun _ => ⟨nonempty, hasData⟩, signalled.active⟩
  | drop =>
      have notPending : ¬state.pending := fun pending =>
        (signalled.pending pending).2 isEnabled
      have hasData := (signalled.entered isEnabled).2
      simp only [next, State.dropQueue, hasData, if_true]
      exact ⟨fun pending => (notPending pending).elim,
        by simp [LoopState.isEntered], fun _ => rfl⟩
  | call =>
      obtain ⟨task, rest, draining⟩ := loop_of_hasNext isEnabled
      simp only [next, State.callNext, draining]
      exact signalled_of_same signalled rfl rfl
        (by simp [LoopState.isEntered]) rfl id
  | erase =>
      obtain ⟨task, rest, running⟩ := loop_of_isInTask isEnabled.1
      simp only [next, State.eraseCurrent, running]
      exact signalled_of_same signalled rfl rfl
        (by simp [LoopState.isEntered]) rfl id
  | leave =>
      exact signalled_of_same signalled rfl rfl
        (by simp [next, LoopState.isEntered]) rfl id
  | destroy =>
      exact signalled_of_same signalled rfl rfl id rfl (by simp [next])
  | closed =>
      have idle := loop_of_isIdle isEnabled.2
      refine ⟨signalled.pending, ?_, by simp [next, State.closeCallback]⟩
      simp [next, State.closeCallback, idle, LoopState.isEntered]
  | closeLoop => exact signalled_of_same signalled rfl rfl id rfl id

def isDrop : Action Thread Task → Bool
  | .drop => true
  | _ => false

/-- The wake-up that the waiting tasks have, if there are any. -/
def owed (state : State Thread Task) : Nat :=
  if state.queue = [] then 0 else 1

omit [DecidableEq Thread] in
private theorem owed_eq {state : State Thread Task} {queue : List Task}
    (isQueue : state.queue = queue) :
    owed state = if queue = [] then 0 else 1 := by
  rw [owed, isQueue]

private theorem sends_other {state : State Thread Task}
    {action : Action Thread Task} (isEnabled : Enabled state action)
    (notPush : ∀ caller, action ≠ .push caller) (notDrop : action ≠ .drop) :
    (next state action).sends = state.sends ∧
      (next state action).queue = state.queue := by
  cases action with
  | push caller => exact (notPush caller rfl).elim
  | drop => exact (notDrop rfl).elim
  | postTask caller task =>
      simp only [next, State.checkRunning]
      split <;> exact ⟨rfl, rfl⟩
  | call =>
      obtain ⟨task, rest, draining⟩ := loop_of_hasNext isEnabled
      simp [next, State.callNext, draining]
  | erase =>
      obtain ⟨task, rest, running⟩ := loop_of_isInTask isEnabled.1
      simp [next, State.eraseCurrent, running]
  | _ => exact ⟨rfl, rfl⟩

private theorem sends_next (state : State Thread Task)
    (action : Action Thread Task) (signalled : Signalled state)
    (isEnabled : Enabled state action) :
    (next state action).sends.length + owed state =
      state.sends.length + owed (next state action) +
        if isDrop action then 1 else 0 := by
  by_cases push : ∃ caller, action = .push caller
  · obtain ⟨caller, rfl⟩ := push
    obtain ⟨task, _, result⟩ := next_push isEnabled
    rw [result, State.lockedPush]
    by_cases empty : state.queue = []
    · simp [empty, owed, State.asyncSend, isDrop]
    · simp [empty, owed, isDrop]
  · by_cases drop : action = .drop
    · subst drop
      obtain ⟨nonempty, hasData⟩ := signalled.entered isEnabled
      simp [next, State.dropQueue, hasData, owed, nonempty, isDrop]
    · obtain ⟨sends, queue⟩ := sends_other isEnabled (not_exists.mp push) drop
      have notDrop : isDrop action = false := by
        cases action with
        | drop => exact (drop rfl).elim
        | _ => rfl
      rw [sends, owed_eq queue, owed, notDrop]
      simp

/-- Every interleaving, the destruction included: each `_run_task` that takes
the queue finds tasks in it, and the number of `uv_async_send` calls is the
number of batches taken, and one more while tasks wait. -/
theorem one_send_per_batch {actions : List (Action Thread Task)}
    (run : (system Thread Task).Run (system Thread Task).start actions) :
    ((system Thread Task).AllSteps
        (fun state action => action = .drop → state.queue ≠ [])
        (system Thread Task).start actions) ∧
      ((system Thread Task).after (system Thread Task).start
          actions).sends.length =
        actions.countP isDrop +
          owed ((system Thread Task).after (system Thread Task).start
            actions) := by
  constructor
  · have unconditional : (system Thread Task).RunWhen (fun _ _ => True)
        (system Thread Task).start actions :=
      run.imp fun _ _ isEnabled => ⟨isEnabled, trivial⟩
    refine unconditional.allSteps
      (fun state action signalled isEnabled _ =>
        signalled_next state action signalled isEnabled)
      (fun state action signalled isEnabled _ => ?_) signalled_start
    rintro rfl
    exact (signalled.entered isEnabled).1
  · have counted := run.count_eq (fun state => state.sends.length) owed isDrop
      signalled_next sends_next signalled_start
    have started : owed (system Thread Task).start = 0 := rfl
    rw [started] at counted
    have none : (system Thread Task).start.sends.length = 0 := rfl
    omega

/-- Two posts before the wake-up share it, and the post of a task gets its
own. -/
theorem one_send_per_batch_shared :
    let actions : List (Action (Fin 1) Nat) :=
      [.postTask (some 0) 1, .push (some 0), .postTask (some 0) 2,
        .push (some 0), .wake, .drop, .call, .postTask none 3, .push none]
    ((system (Fin 1) Nat).after (system (Fin 1) Nat).start
      actions).sends.length = 2 := by
  intro actions
  have run : (system (Fin 1) Nat).Run (system (Fin 1) Nat).start actions := by
    decide
  exact (one_send_per_batch run).2

def isCall : Action Thread Task → Bool
  | .call => true
  | _ => false

/-- Inside `_run_task`, after the move, with these tasks started or left in
the local vector. -/
structure InBatch (tasks : List Task) (state : State Thread Task) : Prop where
  busy : ¬state.loop.isIdle ∧ ¬state.loop.isEntered
  tasks : state.started ++ state.loop.rest = tasks

theorem inBatch_next {tasks : List Task} (state : State Thread Task)
    (action : Action Thread Task) (inBatch : InBatch tasks state)
    (isEnabled : Enabled state action) (within : action ≠ .leave) :
    InBatch tasks (next state action) := by
  obtain ⟨⟨notIdle, notEntered⟩, inBatch⟩ := inBatch
  cases action with
  | postTask caller task =>
      simp only [next, State.checkRunning]
      split <;> exact ⟨⟨notIdle, notEntered⟩, inBatch⟩
  | push caller =>
      obtain ⟨task, _, result⟩ := next_push isEnabled
      rw [result, State.lockedPush]
      split <;> exact ⟨⟨notIdle, notEntered⟩, inBatch⟩
  | wake => exact (notIdle isEnabled.2.2).elim
  | drop => exact (notEntered isEnabled).elim
  | call =>
      obtain ⟨task, rest, draining⟩ := loop_of_hasNext isEnabled
      simp only [draining, LoopState.rest] at inBatch
      simp only [next, State.callNext, draining]
      refine ⟨⟨by simp [LoopState.isIdle], by simp [LoopState.isEntered]⟩, ?_⟩
      simpa [LoopState.rest] using inBatch
  | erase =>
      obtain ⟨task, rest, running⟩ := loop_of_isInTask isEnabled.1
      simp only [running, LoopState.rest] at inBatch
      simp only [next, State.eraseCurrent, running]
      exact ⟨⟨by simp [LoopState.isIdle], by simp [LoopState.isEntered]⟩,
        inBatch⟩
  | leave => exact (within rfl).elim
  | destroy => exact ⟨⟨notIdle, notEntered⟩, inBatch⟩
  | closed => exact (notIdle isEnabled.2).elim
  | closeLoop => exact (notIdle isEnabled.2.1).elim

private theorem started_length_next (state : State Thread Task)
    (action : Action Thread Task) (isEnabled : Enabled state action) :
    (next state action).started.length =
      state.started.length + if isCall action then 1 else 0 := by
  cases action with
  | postTask caller task =>
      simp only [next, State.checkRunning]
      split <;> rfl
  | push caller =>
      obtain ⟨task, _, result⟩ := next_push isEnabled
      rw [result, State.lockedPush]
      split <;> rfl
  | drop =>
      simp only [next, State.dropQueue]
      split <;> rfl
  | call =>
      obtain ⟨task, rest, draining⟩ := loop_of_hasNext isEnabled
      simp [next, State.callNext, draining, isCall]
  | erase =>
      obtain ⟨task, rest, running⟩ := loop_of_isInTask isEnabled.1
      simp [next, State.eraseCurrent, running, isCall]
  | _ => rfl

/-- What one `_run_task` does, from any reachable state in which it is about
to take the queue and whatever is posted or destroyed meanwhile: it starts the
tasks the queue held, in order and no others, it makes as many calls as there
were tasks, and when it can return it has run them all. -/
theorem batch_is_queue {state : State Thread Task}
    (reachable : (system Thread Task).Reachable state)
    (entered : state.loop.isEntered) {actions : List (Action Thread Task)}
    (run : (system Thread Task).RunWhen (fun _ action => action ≠ .leave)
      (next state .drop) actions) :
    let after := (system Thread Task).after (next state .drop) actions
    after.started ++ after.loop.rest = state.started ++ state.queue ∧
      actions.countP isCall + after.loop.rest.length = state.queue.length ∧
      (after.loop.atEnd → after.executed = state.started ++ state.queue) := by
  intro after
  have signalled : Signalled state :=
    reachable.invariant signalled_start signalled_next
  have taken : next state .drop =
      { state with loop := .draining state.queue, queue := [] } := by
    simp [next, State.dropQueue, (signalled.entered entered).2]
  have begins : InBatch (state.started ++ state.queue) (next state .drop) := by
    rw [taken]
    exact ⟨⟨by simp [LoopState.isIdle], by simp [LoopState.isEntered]⟩, rfl⟩
  have ends : InBatch (state.started ++ state.queue) after :=
    run.invariant inBatch_next begins
  have calls : after.started.length =
      (next state .drop).started.length + actions.countP isCall := by
    have kept : ∀ (state : State Thread Task) (action : Action Thread Task),
        True → Enabled state action → True := fun _ _ _ _ => trivial
    have counted := run.run.count_eq (fun state => state.started.length)
      (fun _ => 0) isCall kept
      (fun state action _ isEnabled =>
        started_length_next state action isEnabled) trivial
    exact counted
  have before : (next state .drop).started = state.started := by rw [taken]
  have lengths := congrArg List.length ends.tasks
  rw [List.length_append, List.length_append, calls, before] at lengths
  refine ⟨ends.tasks, by omega, fun atEnd => ?_⟩
  obtain ⟨earlier, ran, isState⟩ := reachable
  have whole : (system Thread Task).Reachable after := by
    refine ⟨earlier ++ .drop :: actions, ?_, ?_⟩
    · rw [System.run_append, isState]
      exact ⟨ran, entered, run.run⟩
    · rw [System.after_append, isState]
      rfl
  have executed := executed_append_current whole
  have drained := loop_of_atEnd atEnd
  have allStarted := ends.tasks
  simp only [drained, LoopState.current, List.append_nil] at executed
  simp only [drained, LoopState.rest, List.append_nil] at allStarted
  rw [executed, allStarted]

/-- A task that posts another one does not see it run in its own batch. -/
theorem batch_is_queue_reposted :
    let earlier : List (Action (Fin 1) Nat) :=
      [.postTask (some 0) 1, .push (some 0), .wake]
    let actions : List (Action (Fin 1) Nat) :=
      [.call, .postTask none 2, .push none, .erase]
    ((system (Fin 1) Nat).after (next ((system (Fin 1) Nat).after
      (system (Fin 1) Nat).start earlier) .drop) actions).executed = [1] := by
  intro earlier actions
  have reachable : (system (Fin 1) Nat).Reachable
      ((system (Fin 1) Nat).after (system (Fin 1) Nat).start earlier) :=
    ⟨earlier, by decide, rfl⟩
  have run : (system (Fin 1) Nat).Run (next ((system (Fin 1) Nat).after
      (system (Fin 1) Nat).start earlier) .drop) actions := by decide
  have within : (system (Fin 1) Nat).RunWhen (fun _ action => action ≠ .leave)
      (next ((system (Fin 1) Nat).after (system (Fin 1) Nat).start
        earlier) .drop) actions :=
    run.runWhen (by simp [actions])
  exact (batch_is_queue reachable rfl within).2.2 rfl

end QuickApp.TaskQueue
