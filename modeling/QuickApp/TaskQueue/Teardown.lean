import QuickApp.TaskQueue.Model

/-!
# The destruction of the queue

`PostTask` reads `running` before it takes the lock, and the close callback
clears `running` without it.  A call that read `running` before the callback
still pushes after it, and sends on the closed handle if it finds the queue
empty.  The close callback is harmless exactly when no call is left between
the two halves or the queue is not empty: after it nothing drains the queue.

A task may destroy the queue.  `_run_task` then goes on with the tasks it
moved into its local vector, so the destruction stops the queue only when no
task is left there.
-/

namespace QuickApp.TaskQueue

variable {Thread Task : Type} [DecidableEq Thread]

/-- No other thread is between the read of `running` and its push. -/
def NoneInside (state : State Thread Task) : Prop :=
  ∀ thread, (state.callers (some thread)).isNone

/-- The close callback is run only when no thread is inside `PostTask` or the
queue is not empty. -/
def QuietClose (state : State Thread Task) : Action Thread Task → Prop
  | .closed => state.queue ≠ [] ∨ NoneInside state
  | _ => True

/-- What holds along every run whose close callback is quiet. -/
structure Quiet (state : State Thread Task) : Prop where
  own : (state.callers none).isSome → state.loop.isInTask
  stopped : state.handle = .closed → state.running = false
  idle : state.handle = .closed → state.loop.isIdle
  settled : state.handle = .closed →
    state.queue ≠ [] ∨ ∀ caller, (state.callers caller).isNone
  sends : .closed ∉ state.sends

theorem quiet_start : Quiet (system Thread Task).start where
  own := by simp [system]
  stopped := by simp [system]
  idle := by simp [system]
  settled := by simp [system]
  sends := by simp [system]

private theorem quiet_postTask {state : State Thread Task} (quiet : Quiet state)
    {caller : Option Thread} {task : Task}
    (isEnabled : Enabled state (.postTask caller task)) :
    Quiet (next state (.postTask caller task)) := by
  simp only [next, State.checkRunning]
  split
  · rename_i running
    have open_ : state.handle ≠ .closed := by
      intro closed
      simp [quiet.stopped closed] at running
    refine
      { own := ?_
        stopped := quiet.stopped
        idle := quiet.idle
        settled := fun closed => (open_ closed).elim
        sends := quiet.sends }
    intro inside
    cases caller with
    | none => exact isEnabled.2 rfl
    | some thread =>
        exact quiet.own (by simpa using inside)
  · exact quiet

private theorem quiet_push {state : State Thread Task} (quiet : Quiet state)
    {caller : Option Thread}
    (isEnabled : Enabled state (.push caller : Action Thread Task)) :
    Quiet (next state (.push caller)) := by
  obtain ⟨task, found, result⟩ := next_push isEnabled
  have own : (Function.update state.callers caller none none).isSome →
      state.loop.isInTask := by
    intro inside
    cases caller with
    | none => simp at inside
    | some thread => exact quiet.own (by simpa using inside)
  have nonempty : state.handle = .closed → state.queue ≠ [] := by
    intro closed
    rcases quiet.settled closed with nonempty | outside
    · exact nonempty
    · simpa [found] using outside caller
  have settled : state.handle = .closed → state.queue ++ [task] ≠ [] ∨
      ∀ other, (Function.update state.callers caller none other).isNone :=
    fun _ => Or.inl (by simp)
  rw [result, State.lockedPush]
  split
  · rename_i becameOne
    have empty : state.queue = [] := by simpa using becameOne
    have open_ : state.handle ≠ .closed := fun closed => nonempty closed empty
    refine ⟨own, quiet.stopped, quiet.idle, settled, ?_⟩
    simp [State.asyncSend, quiet.sends, open_.symm]
  · exact ⟨own, quiet.stopped, quiet.idle, settled, quiet.sends⟩

omit [DecidableEq Thread] in
private theorem Quiet.notClosed {state : State Thread Task}
    (quiet : Quiet state) (busy : ¬state.loop.isIdle) :
    state.handle ≠ .closed :=
  fun closed => busy (quiet.idle closed)

omit [DecidableEq Thread] in
/-- The wake-up and the steps inside `_run_task` need a handle that is not
closed, so a change of the loop position is harmless. -/
private theorem quiet_loop {state result : State Thread Task}
    (quiet : Quiet state) (notClosed : state.handle ≠ .closed)
    (callers : result.callers = state.callers)
    (handle : result.handle = state.handle)
    (sends : result.sends = state.sends)
    (own : (state.callers none).isSome → result.loop.isInTask) :
    Quiet result where
  own := by rw [callers]; exact own
  stopped := fun closed => (notClosed (handle ▸ closed)).elim
  idle := fun closed => (notClosed (handle ▸ closed)).elim
  settled := fun closed => (notClosed (handle ▸ closed)).elim
  sends := sends ▸ quiet.sends

private theorem quiet_closed {state : State Thread Task} (quiet : Quiet state)
    (isEnabled : Enabled state (.closed : Action Thread Task))
    (quietClose : QuietClose state (.closed : Action Thread Task)) :
    Quiet (next state .closed) := by
  have idle := loop_of_isIdle isEnabled.2
  refine ⟨quiet.own, fun _ => rfl, fun _ => isEnabled.2, fun _ => ?_,
    quiet.sends⟩
  rcases quietClose with nonempty | noneInside
  · exact Or.inl nonempty
  · right
    intro caller
    cases caller with
    | none =>
        have noCall : ¬(state.callers none).isSome := by
          intro inside
          have inTask := quiet.own inside
          simp [idle, LoopState.isInTask] at inTask
        exact Option.not_isSome_iff_eq_none.mp noCall ▸ rfl
    | some thread => exact noneInside thread

theorem quiet_next (state : State Thread Task) (action : Action Thread Task)
    (quiet : Quiet state) (isEnabled : Enabled state action)
    (quietClose : QuietClose state action) : Quiet (next state action) := by
  have outside : ¬state.loop.isInTask → ¬(state.callers none).isSome :=
    fun notInTask inside => notInTask (quiet.own inside)
  cases action with
  | postTask caller task => exact quiet_postTask quiet isEnabled
  | push caller => exact quiet_push quiet isEnabled
  | wake =>
      obtain ⟨_, isActive, isIdle⟩ := isEnabled
      have idle := loop_of_isIdle isIdle
      refine quiet_loop quiet (by simp [isActive]) rfl rfl rfl ?_
      exact fun inside => (outside (by simp [idle, LoopState.isInTask])
        inside).elim
  | drop =>
      have entered := loop_of_isEntered isEnabled
      have notClosed := quiet.notClosed (by simp [entered, LoopState.isIdle])
      have noCall := outside (by simp [entered, LoopState.isInTask])
      simp only [next, State.dropQueue]
      split <;>
        exact quiet_loop quiet notClosed rfl rfl rfl
          (fun inside => (noCall inside).elim)
  | call =>
      obtain ⟨task, rest, draining⟩ := loop_of_hasNext isEnabled
      have notClosed := quiet.notClosed (by simp [draining, LoopState.isIdle])
      simp only [next, State.callNext, draining]
      exact quiet_loop quiet notClosed rfl rfl rfl (fun _ => rfl)
  | erase =>
      obtain ⟨inTask, returned⟩ := isEnabled
      obtain ⟨task, rest, running⟩ := loop_of_isInTask inTask
      have notClosed := quiet.notClosed (by simp [running, LoopState.isIdle])
      simp only [next, State.eraseCurrent, running]
      exact quiet_loop quiet notClosed rfl rfl rfl
        (fun inside => by simp_all)
  | leave =>
      have atEnd := loop_of_atEnd isEnabled
      have notClosed := quiet.notClosed (by simp [atEnd, LoopState.isIdle])
      exact quiet_loop quiet notClosed rfl rfl rfl
        (fun inside => (outside (by simp [atEnd, LoopState.isInTask])
          inside).elim)
  | destroy =>
      refine ⟨quiet.own, ?_, ?_, ?_, quiet.sends⟩ <;> simp [next]
  | closed => exact quiet_closed quiet isEnabled quietClose
  | closeLoop => exact ⟨quiet.own, quiet.stopped, quiet.idle, quiet.settled,
      quiet.sends⟩

/-- A thread left inside `PostTask` by a close callback that finds the queue
empty sends on the closed handle with its next step. -/
theorem send_after_loud_close {state : State Thread Task}
    (loud : ¬QuietClose state .closed) :
    ∃ caller, Enabled (next state .closed) (.push caller : Action Thread Task) ∧
      .closed ∈ (next (next state .closed) (.push caller)).sends := by
  simp only [QuietClose, NoneInside, not_or, not_not, not_forall] at loud
  obtain ⟨empty, thread, inside⟩ := loud
  have isInside : (state.callers (some thread)).isSome := by
    simpa [Option.isSome_iff_ne_none] using inside
  have isEnabled : Enabled (next state .closed)
      (.push (some thread) : Action Thread Task) := isInside
  obtain ⟨task, found, result⟩ := next_push isEnabled
  refine ⟨some thread, isInside, ?_⟩
  rw [result]
  simp [State.lockedPush, State.asyncSend, next, State.closeCallback, empty]

/-- In every run whose close callback finds the queue non-empty or no thread
inside `PostTask`, nothing is sent on the closed handle; any other close
callback can be followed by such a send. -/
theorem no_send_on_closed :
    (∀ state : State Thread Task,
      (system Thread Task).ReachableWhen QuietClose state →
        .closed ∉ state.sends) ∧
    (∀ state : State Thread Task, (system Thread Task).Reachable state →
      Enabled state (.closed : Action Thread Task) →
      ¬QuietClose state .closed →
        ∃ actions, (system Thread Task).Run state (.closed :: actions) ∧
          .closed ∈ ((system Thread Task).after state
            (.closed :: actions)).sends) := by
  constructor
  · intro state reachable
    have quiet : Quiet state := reachable.invariant quiet_start quiet_next
    exact quiet.sends
  · intro state _ isEnabled loud
    obtain ⟨caller, pushEnabled, sent⟩ := send_after_loud_close loud
    exact ⟨[.push caller], ⟨isEnabled, pushEnabled, trivial⟩, sent⟩

/-- The close callback finds a task in the queue and a thread inside
`PostTask`, which pushes afterwards. -/
theorem no_send_on_closed_pushed :
    .closed ∉ ((system (Fin 2) Nat).after (system (Fin 2) Nat).start
      [.postTask (some 0) 7, .push (some 0), .postTask (some 1) 8, .destroy,
        .closed, .push (some 1)]).sends := by
  apply no_send_on_closed.1
  refine ⟨[.postTask (some 0) 7, .push (some 0), .postTask (some 1) 8,
      .destroy, .closed, .push (some 1)],
    ⟨⟨by decide, trivial⟩, ⟨by decide, trivial⟩, ⟨by decide, trivial⟩,
      ⟨by decide, trivial⟩, ⟨by decide, ?_⟩, ⟨by decide, trivial⟩, trivial⟩,
    rfl⟩
  exact Or.inl (by decide)

/-- One thread reads `running`, the queue is destroyed and its close callback
runs, and the thread then pushes and sends. -/
theorem postTask_sends_on_closed :
    ∃ state, (system (Fin 1) Nat).Reachable state ∧
      .closed ∈ state.sends :=
  ⟨_, ⟨[.postTask (some 0) 7, .destroy, .closed, .closeLoop, .push (some 0)],
    by decide, rfl⟩, by decide⟩

/-- No task begins once the destructor was called. -/
def StartsInTime (state : State Thread Task) : Action Thread Task → Prop
  | .call => state.handle = .active
  | _ => True

/-- The destructor is not called by a task with further tasks behind it. -/
def LastInBatch (state : State Thread Task) : Action Thread Task → Prop
  | .destroy => state.loop.rest = []
  | _ => True

/-- After the destruction the local vector has no further task, and no
wake-up has moved another one into it. -/
def Exhausted (state : State Thread Task) : Prop :=
  state.handle ≠ .active →
    state.loop.rest = [] ∧ ¬state.loop.isEntered

omit [DecidableEq Thread] in
private theorem Exhausted.noNext {state : State Thread Task}
    (exhausted : Exhausted state) (more : state.loop.hasNext) :
    state.handle = .active := by
  by_contra destroyed
  obtain ⟨task, rest, draining⟩ := loop_of_hasNext more
  have empty := (exhausted destroyed).1
  simp [draining, LoopState.rest] at empty

omit [DecidableEq Thread] in
private theorem Exhausted.notEntered {state : State Thread Task}
    (exhausted : Exhausted state) (entered : state.loop.isEntered) :
    state.handle = .active := by
  by_contra destroyed
  exact (exhausted destroyed).2 entered

theorem exhausted_next (state : State Thread Task)
    (action : Action Thread Task) (exhausted : Exhausted state)
    (isEnabled : Enabled state action) (last : LastInBatch state action) :
    Exhausted (next state action) := by
  cases action with
  | postTask caller task =>
      simp only [next, State.checkRunning]
      split
      · exact exhausted
      · exact exhausted
  | push caller =>
      obtain ⟨task, found, result⟩ := next_push isEnabled
      rw [result, State.lockedPush]
      split
      · exact exhausted
      · exact exhausted
  | wake =>
      intro destroyed
      exact (destroyed isEnabled.2.1).elim
  | drop =>
      have active := exhausted.notEntered isEnabled
      simp only [next, State.dropQueue]
      split
      · intro destroyed
        exact (destroyed active).elim
      · intro destroyed
        exact (destroyed active).elim
  | call =>
      have active := exhausted.noNext isEnabled
      obtain ⟨task, rest, draining⟩ := loop_of_hasNext isEnabled
      simp only [next, State.callNext, draining]
      intro destroyed
      exact (destroyed active).elim
  | erase =>
      obtain ⟨task, rest, running⟩ := loop_of_isInTask isEnabled.1
      simp only [next, State.eraseCurrent, running]
      intro destroyed
      have empty := (exhausted destroyed).1
      rw [running] at empty
      exact ⟨empty, Bool.false_ne_true⟩
  | leave =>
      intro _
      exact ⟨rfl, Bool.false_ne_true⟩
  | destroy =>
      intro _
      refine ⟨last, fun entered => ?_⟩
      have position : state.loop = .entered := loop_of_isEntered entered
      have elsewhere := isEnabled.2
      simp [position, LoopState.isIdle, LoopState.isInTask] at elsewhere
  | closed =>
      have idle := loop_of_isIdle isEnabled.2
      intro _
      simp only [next, State.closeCallback, idle]
      exact ⟨rfl, Bool.false_ne_true⟩
  | closeLoop => exact exhausted

omit [DecidableEq Thread] in
theorem startsInTime_of_exhausted (state : State Thread Task)
    (action : Action Thread Task) (exhausted : Exhausted state)
    (isEnabled : Enabled state action) : StartsInTime state action := by
  cases action with
  | call => exact exhausted.noNext isEnabled
  | _ => trivial

/-- A task that destroys the queue is followed by the next task of its
batch. -/
theorem call_after_destroy {state : State Thread Task}
    (isEnabled : Enabled state (.destroy : Action Thread Task))
    (notLast : ¬LastInBatch state (.destroy : Action Thread Task)) :
    (system Thread Task).Run state [.destroy, .erase, .call] ∧
      ¬(system Thread Task).AllSteps StartsInTime state
        [.destroy, .erase, .call] := by
  obtain ⟨active, position⟩ := isEnabled
  have inTask : state.loop.isInTask ∧ (state.callers none).isNone := by
    cases position with
    | inl isIdle =>
        have idle := loop_of_isIdle isIdle
        simp [LastInBatch, idle, LoopState.rest] at notLast
    | inr inTask => exact inTask
  obtain ⟨task, rest, running⟩ := loop_of_isInTask inTask.1
  cases rest with
  | nil => simp [LastInBatch, running, LoopState.rest] at notLast
  | cons following rest =>
      constructor
      · refine ⟨⟨active, Or.inr inTask⟩, inTask, ?_, trivial⟩
        simp [system, next, State.eraseCurrent, running, Enabled,
          LoopState.hasNext]
      · intro inTime
        have late := inTime.2.2.1
        simp [system, next, State.eraseCurrent, running, StartsInTime] at late

/-- In every run whose destruction, if there is one, comes between wake-ups or
from the last task of a batch, no task begins after it; any other destruction
can be followed by the begin of a task. -/
theorem no_start_after_destroy :
    (∀ actions : List (Action Thread Task),
      (system Thread Task).RunWhen LastInBatch (system Thread Task).start
          actions →
        (system Thread Task).AllSteps StartsInTime
          (system Thread Task).start actions) ∧
    (∀ state : State Thread Task, (system Thread Task).Reachable state →
      Enabled state (.destroy : Action Thread Task) →
      ¬LastInBatch state (.destroy : Action Thread Task) →
        ∃ actions, (system Thread Task).Run state (.destroy :: actions) ∧
          ¬(system Thread Task).AllSteps StartsInTime state
            (.destroy :: actions)) := by
  constructor
  · intro actions run
    apply run.allSteps exhausted_next
    · intro state action exhausted isEnabled _
      exact startsInTime_of_exhausted state action exhausted isEnabled
    · intro destroyed
      exact (destroyed rfl).elim
  · intro state _ isEnabled notLast
    exact ⟨[.erase, .call], call_after_destroy isEnabled notLast⟩

/-- The only task of a batch destroys the queue. -/
theorem no_start_after_destroy_single :
    (system (Fin 1) Nat).AllSteps StartsInTime (system (Fin 1) Nat).start
      [.postTask (some 0) 7, .push (some 0), .wake, .drop, .call, .destroy,
        .erase, .leave, .closed] := by
  apply no_start_after_destroy.1
  refine ⟨⟨by decide, trivial⟩, ⟨by decide, trivial⟩, ⟨by decide, trivial⟩,
    ⟨by decide, trivial⟩, ⟨by decide, trivial⟩, ⟨by decide, rfl⟩,
    ⟨by decide, trivial⟩, ⟨by decide, trivial⟩, ⟨by decide, trivial⟩,
    trivial⟩

/-- Two tasks in one batch, of which the first destroys the queue: the second
one begins and is executed. -/
theorem task_starts_after_destroy :
    let actions : List (Action (Fin 1) Nat) :=
      [.postTask (some 0) 7, .push (some 0), .postTask (some 0) 8,
        .push (some 0), .wake, .drop, .call, .destroy, .erase, .call, .erase]
    (system (Fin 1) Nat).Run (system (Fin 1) Nat).start actions ∧
      ((system (Fin 1) Nat).after (system (Fin 1) Nat).start
        actions).executed = [7, 8] ∧
      ¬(system (Fin 1) Nat).AllSteps StartsInTime
        (system (Fin 1) Nat).start actions := by
  intro actions
  refine ⟨by decide, by decide, ?_⟩
  rintro ⟨_, _, _, _, _, _, _, _, _, late, _⟩
  cases late

end QuickApp.TaskQueue
