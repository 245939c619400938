import Mathlib.Logic.Function.Basic
import QuickApp.Transition

/-!
# The JavaScript task queue over a libuv async handle

`TaskQueueData::PostTask` may be called from any thread; `UVTaskQueue` drains
the queue on the loop thread from the callback of a `uv_async_t`.  The model
interleaves the two halves of every `PostTask` call (reading `running`, then
the locked push) with the steps of `_run_task` and of the destruction of the
queue.

Of libuv the model keeps what the code relies on: `uv_async_send` sets one
pending flag, the loop clears it and then calls `_run_task` once, and after
`uv_close` only the close callback is still called.
-/

namespace QuickApp.TaskQueue

/-- Life of the `uv_async_t` inside `TaskQueueData`. -/
inductive HandleState where
  | active
  | closing
  | closed
  deriving DecidableEq

/-- Position of the loop thread relative to `_run_task`.  `draining` holds the
local vector between two tasks; during a task the vector still starts with
that task, which is erased when it returns. -/
inductive LoopState (Task : Type) where
  | idle
  | entered
  | draining (batch : List Task)
  | inTask (task : Task) (rest : List Task)

namespace LoopState

variable {Task : Type}

/-- The local vector of `_run_task`. -/
def batch : LoopState Task → List Task
  | .draining batch => batch
  | .inTask task rest => task :: rest
  | _ => []

/-- The part of the local vector no call has been made to yet. -/
def rest : LoopState Task → List Task
  | .draining batch => batch
  | .inTask _ rest => rest
  | _ => []

/-- The task being called. -/
def current : LoopState Task → List Task
  | .inTask task _ => [task]
  | _ => []

def isIdle : LoopState Task → Bool
  | .idle => true
  | _ => false

def isEntered : LoopState Task → Bool
  | .entered => true
  | _ => false

def isInTask : LoopState Task → Bool
  | .inTask _ _ => true
  | _ => false

/-- `it != queue.end()` at the head of the loop. -/
def hasNext : LoopState Task → Bool
  | .draining (_ :: _) => true
  | _ => false

/-- `it == queue.end()` at the head of the loop. -/
def atEnd : LoopState Task → Bool
  | .draining [] => true
  | _ => false

theorem batch_eq (loop : LoopState Task) :
    loop.batch = loop.current ++ loop.rest := by
  cases loop <;> rfl

end LoopState

/-- `TaskQueueData`, the libuv side of its handle, the callers inside
`PostTask` and the loop thread.  A caller is `none` for the running task
itself and `some thread` for any other call; it is mapped to its task from the
read of `running` until the push.  The last four fields record the history. -/
structure State (Thread Task : Type) where
  running : Bool := true
  queue : List Task := []
  handle : HandleState := .active
  hasData : Bool := true
  pending : Bool := false
  loopOpen : Bool := true
  callers : Option Thread → Option Task := fun _ => none
  loop : LoopState Task := .idle
  pushed : List Task := []
  started : List Task := []
  executed : List Task := []
  sends : List HandleState := []

/-- One step of some thread.  `closed` is the close callback given to
`uv_close`, `closeLoop` the `uv_loop_close` of `runApplication`. -/
inductive Action (Thread Task : Type) where
  | postTask (caller : Option Thread) (task : Task)
  | push (caller : Option Thread)
  | wake
  | drop
  | call
  | erase
  | leave
  | destroy
  | closed
  | closeLoop

namespace State

variable {Thread Task : Type} [DecidableEq Thread]

/-- `uv_async_send(&async)`. -/
def asyncSend (state : State Thread Task) : State Thread Task :=
  { state with pending := true, sends := state.handle :: state.sends }

/-- First half of `PostTask`: `if (running.load())`. -/
def checkRunning (state : State Thread Task) (caller : Option Thread)
    (task : Task) : State Thread Task :=
  if state.running then
    { state with callers := Function.update state.callers caller (some task) }
  else state

/-- Second half of `PostTask`: with the lock held, push and send when the size
became one. -/
def lockedPush (state : State Thread Task) (caller : Option Thread)
    (task : Task) : State Thread Task :=
  let posted :=
    { state with
      callers := Function.update state.callers caller none
      queue := state.queue ++ [task]
      pushed := state.pushed ++ [task] }
  if posted.queue.length = 1 then posted.asyncSend else posted

/-- `_run_task` up to the move of the queue into the local vector. -/
def dropQueue (state : State Thread Task) : State Thread Task :=
  if state.hasData then
    { state with loop := .draining state.queue, queue := [] }
  else { state with loop := .idle }

/-- `(*it)()` begins. -/
def callNext (state : State Thread Task) : State Thread Task :=
  match state.loop with
  | .draining (task :: rest) =>
      { state with
        loop := .inTask task rest
        started := state.started ++ [task] }
  | _ => state

/-- The task returned; `queue.erase(it)`. -/
def eraseCurrent (state : State Thread Task) : State Thread Task :=
  match state.loop with
  | .inTask task rest =>
      { state with
        loop := .draining rest
        executed := state.executed ++ [task] }
  | _ => state

/-- The callback given to `uv_close` by the destructor. -/
def closeCallback (state : State Thread Task) : State Thread Task :=
  { state with running := false, hasData := false, handle := .closed }

end State

variable {Thread Task : Type} [DecidableEq Thread]

/-- When a step may be taken.  The running task posts only while it runs and
the loop thread moves on only when its own `PostTask` call has returned; the
destructor runs on the loop thread, between callbacks or inside a task. -/
def Enabled (state : State Thread Task) : Action Thread Task → Prop
  | .postTask caller _ =>
      (state.callers caller).isNone ∧
        (caller.isNone → state.loop.isInTask)
  | .push caller => (state.callers caller).isSome
  | .wake => state.pending ∧ state.handle = .active ∧ state.loop.isIdle
  | .drop => state.loop.isEntered
  | .call => state.loop.hasNext
  | .erase => state.loop.isInTask ∧ (state.callers none).isNone
  | .leave => state.loop.atEnd
  | .destroy => state.handle = .active ∧
      (state.loop.isIdle ∨
        (state.loop.isInTask ∧ (state.callers none).isNone))
  | .closed => state.handle = .closing ∧ state.loop.isIdle
  | .closeLoop => state.handle = .closed ∧ state.loop.isIdle ∧ state.loopOpen

instance Enabled.decidable (state : State Thread Task) :
    ∀ action, Decidable (Enabled state action)
  | .postTask _ _ => inferInstanceAs (Decidable (_ ∧ (_ → _)))
  | .push _ => inferInstanceAs (Decidable (_ = true))
  | .wake => inferInstanceAs (Decidable (_ ∧ _ ∧ _))
  | .drop => inferInstanceAs (Decidable (_ = true))
  | .call => inferInstanceAs (Decidable (_ = true))
  | .erase => inferInstanceAs (Decidable (_ ∧ _))
  | .leave => inferInstanceAs (Decidable (_ = true))
  | .destroy => inferInstanceAs (Decidable (_ ∧ (_ ∨ (_ ∧ _))))
  | .closed => inferInstanceAs (Decidable (_ ∧ _))
  | .closeLoop => inferInstanceAs (Decidable (_ ∧ _ ∧ _))

/-- The state after a step. -/
def next (state : State Thread Task) :
    Action Thread Task → State Thread Task
  | .postTask caller task => state.checkRunning caller task
  | .push caller =>
      match state.callers caller with
      | some task => state.lockedPush caller task
      | none => state
  | .wake => { state with pending := false, loop := .entered }
  | .drop => state.dropQueue
  | .call => state.callNext
  | .erase => state.eraseCurrent
  | .leave => { state with loop := .idle }
  | .destroy => { state with handle := .closing }
  | .closed => state.closeCallback
  | .closeLoop => { state with loopOpen := false }

/-- All interleavings of the posting threads with the loop thread. -/
def system (Thread Task : Type) [DecidableEq Thread] :
    System (State Thread Task) (Action Thread Task) where
  start := {}
  enabled := Enabled
  next := next

instance system.decidableEnabled (state : State Thread Task)
    (action : Action Thread Task) :
    Decidable ((system Thread Task).enabled state action) :=
  Enabled.decidable state action

theorem next_push {state : State Thread Task} {caller : Option Thread}
    (inside : (state.callers caller).isSome) :
    ∃ task, state.callers caller = some task ∧
      next state (.push caller) = state.lockedPush caller task := by
  obtain ⟨task, found⟩ := Option.isSome_iff_exists.mp inside
  exact ⟨task, found, by simp [next, found]⟩

/-- The task a push step puts into the queue. -/
def pushedTask (state : State Thread Task) : Action Thread Task → List Task
  | .push caller => (state.callers caller).toList
  | _ => []

private theorem pushed_next (state : State Thread Task)
    (action : Action Thread Task) :
    (next state action).pushed = state.pushed ++ pushedTask state action := by
  cases action with
  | postTask caller task =>
      simp only [next, State.checkRunning, pushedTask, List.append_nil]
      split
      · rfl
      · rfl
  | push caller =>
      cases found : state.callers caller with
      | none => simp [next, pushedTask, found]
      | some task =>
          simp only [next, pushedTask, found, State.lockedPush]
          split
          · rfl
          · rfl
  | drop =>
      simp only [next, State.dropQueue, pushedTask, List.append_nil]
      split
      · rfl
      · rfl
  | call =>
      simp only [next, State.callNext, pushedTask, List.append_nil]
      split
      · rfl
      · rfl
  | erase =>
      simp only [next, State.eraseCurrent, pushedTask, List.append_nil]
      split
      · rfl
      · rfl
  | _ => exact (List.append_nil _).symm

/-- `pushed` lists the tasks of the push steps, in their order. -/
theorem pushed_after (state : State Thread Task)
    (actions : List (Action Thread Task)) :
    ((system Thread Task).after state actions).pushed =
      state.pushed ++ (system Thread Task).relabel pushedTask state actions := by
  induction actions generalizing state with
  | nil => exact (List.append_nil _).symm
  | cons action actions induction =>
      have step := pushed_next state action
      rw [System.after_cons, induction, System.relabel, ← List.append_assoc]
      exact congrArg (· ++ _) step

theorem loop_of_hasNext {loop : LoopState Task} (more : loop.hasNext) :
    ∃ task rest, loop = .draining (task :: rest) := by
  match loop, more with
  | .draining (task :: rest), _ => exact ⟨task, rest, rfl⟩

theorem loop_of_isInTask {loop : LoopState Task} (inTask : loop.isInTask) :
    ∃ task rest, loop = .inTask task rest := by
  match loop, inTask with
  | .inTask task rest, _ => exact ⟨task, rest, rfl⟩

theorem loop_of_atEnd {loop : LoopState Task} (atEnd : loop.atEnd) :
    loop = .draining [] := by
  match loop, atEnd with
  | .draining [], _ => rfl

theorem loop_of_isIdle {loop : LoopState Task} (idle : loop.isIdle) :
    loop = .idle := by
  match loop, idle with
  | .idle, _ => rfl

theorem loop_of_isEntered {loop : LoopState Task} (entered : loop.isEntered) :
    loop = .entered := by
  match loop, entered with
  | .entered, _ => rfl

end QuickApp.TaskQueue
