import QuickApp.TaskQueue.Delivery

/-!
# What the task queue takes for one step

`PostTask` pushes under a guard of the mutex: it reads the vector, writes it
back with the task behind it, looks at the size and lets the guard go.
`_run_task` gets a reference from `drop`, which has unlocked the mutex by then,
and moves the vector out in two halves, a read and a write.  Here all of these
are steps of their own; the other steps of the queue are those of the coarse
model.

The coarse model takes the push for one step and the move for another.  A run
in which no move overlaps a guarded section is a run of the coarse model; a run
keeps every task exactly when each half of a push or a move still finds the
vector its first half has read.
-/

namespace QuickApp.TaskQueue.Atomicity

/-- How far a caller of `PostTask` is while it holds the guard. -/
inductive Progress (Task : Type) where
  | entered
  | seen (contents : List Task)
  | written
  | signalled

/-- `mutex_`, and how far its holder is; `dropping` is inside `drop`. -/
inductive MutexState (Thread Task : Type) where
  | free
  | guarded (caller : Option Thread) (progress : Progress Task)
  | dropping

/-- How far `_run_task` is with the reference that `drop` returned. -/
inductive Move (Task : Type) where
  | outside
  | referring
  | moving (contents : List Task)

namespace Progress

variable {Task : Type}

def isEntered : Progress Task → Bool
  | .entered => true
  | _ => false

def hasSeen : Progress Task → Bool
  | .seen _ => true
  | _ => false

def isWritten : Progress Task → Bool
  | .written => true
  | _ => false

def isSignalled : Progress Task → Bool
  | .signalled => true
  | _ => false

end Progress

namespace MutexState

variable {Thread Task : Type} [DecidableEq Thread]

def isFree : MutexState Thread Task → Bool
  | .free => true
  | _ => false

def isDropping : MutexState Thread Task → Bool
  | .dropping => true
  | _ => false

/-- The caller holds the guard and is at such a point. -/
def guardedAt (mutex : MutexState Thread Task) (caller : Option Thread)
    (isAt : Progress Task → Bool) : Bool :=
  match mutex with
  | .guarded holder progress => holder = caller && isAt progress
  | _ => false

end MutexState

namespace Move

variable {Task : Type}

def isOutside : Move Task → Bool
  | .outside => true
  | _ => false

def isReferring : Move Task → Bool
  | .referring => true
  | _ => false

def isMoving : Move Task → Bool
  | .moving _ => true
  | _ => false

end Move

/-- The coarse state, whose queue is the vector itself, the mutex and the
move. -/
structure Fine (Thread Task : Type) where
  core : State Thread Task := {}
  mutex : MutexState Thread Task := .free
  move : Move Task := .outside

/-- `other` are the steps that leave the vector alone; `skip` is `_run_task`
without data. -/
inductive Step (Thread Task : Type) where
  | other (action : Action Thread Task)
  | lock (caller : Option Thread)
  | read (caller : Option Thread)
  | write (caller : Option Thread)
  | signal (caller : Option Thread)
  | unlock (caller : Option Thread)
  | acquireDrop
  | releaseDrop
  | take
  | empty
  | skip

/-- The steps of the coarse model that are one step here, too. -/
def leavesQueue {Thread Task : Type} : Action Thread Task → Bool
  | .push _ => false
  | .drop => false
  | _ => true

variable {Thread Task : Type} [DecidableEq Thread]

/-- The call of `PostTask` has returned where the program goes on. -/
def Returned (mutex : MutexState Thread Task) : Action Thread Task → Prop
  | .postTask caller _ => mutex.guardedAt caller (fun _ => true) = false
  | .erase => mutex.guardedAt none (fun _ => true) = false
  | .destroy => mutex.guardedAt none (fun _ => true) = false
  | _ => True

instance Returned.decidable (mutex : MutexState Thread Task) :
    ∀ action, Decidable (Returned mutex action)
  | .postTask _ _ => inferInstanceAs (Decidable (_ = _))
  | .erase => inferInstanceAs (Decidable (_ = _))
  | .destroy => inferInstanceAs (Decidable (_ = _))
  | .push _ => .isTrue trivial
  | .wake => .isTrue trivial
  | .drop => .isTrue trivial
  | .call => .isTrue trivial
  | .leave => .isTrue trivial
  | .closed => .isTrue trivial
  | .closeLoop => .isTrue trivial

def Enabled (fine : Fine Thread Task) : Step Thread Task → Prop
  | .other action => leavesQueue action ∧ TaskQueue.Enabled fine.core action ∧
      Returned fine.mutex action
  | .lock caller => (fine.core.callers caller).isSome ∧ fine.mutex.isFree
  | .read caller => fine.mutex.guardedAt caller Progress.isEntered
  | .write caller => fine.mutex.guardedAt caller Progress.hasSeen
  | .signal caller => fine.mutex.guardedAt caller Progress.isWritten
  | .unlock caller => fine.mutex.guardedAt caller Progress.isSignalled
  | .acquireDrop => fine.core.loop.isEntered ∧ fine.core.hasData ∧
      fine.mutex.isFree ∧ fine.move.isOutside
  | .releaseDrop => fine.mutex.isDropping
  | .take => fine.move.isReferring
  | .empty => fine.move.isMoving
  | .skip => fine.core.loop.isEntered ∧ fine.core.hasData = false

instance Enabled.decidable (fine : Fine Thread Task) :
    ∀ step, Decidable (Enabled fine step)
  | .other _ => inferInstanceAs (Decidable (_ = true ∧ _ ∧ _))
  | .lock _ => inferInstanceAs (Decidable (_ = true ∧ _ = true))
  | .read _ => inferInstanceAs (Decidable (_ = true))
  | .write _ => inferInstanceAs (Decidable (_ = true))
  | .signal _ => inferInstanceAs (Decidable (_ = true))
  | .unlock _ => inferInstanceAs (Decidable (_ = true))
  | .acquireDrop =>
      inferInstanceAs (Decidable (_ = true ∧ _ = true ∧ _ = true ∧ _ = true))
  | .releaseDrop => inferInstanceAs (Decidable (_ = true))
  | .take => inferInstanceAs (Decidable (_ = true))
  | .empty => inferInstanceAs (Decidable (_ = true))
  | .skip => inferInstanceAs (Decidable (_ = true ∧ _ = false))

namespace Fine

variable (fine : Fine Thread Task)

/-- The second half of `push_back`. -/
def writeBack (caller : Option Thread) : Fine Thread Task :=
  match fine.mutex, fine.core.callers caller with
  | .guarded _ (.seen contents), some task =>
      { fine with
        core :=
          { fine.core with
            queue := contents ++ [task]
            pushed := fine.core.pushed ++ [task] }
        mutex := .guarded caller .written }
  | _, _ => fine

/-- `if (q->size() == 1) uv_async_send(&async)`. -/
def signalSize (caller : Option Thread) : Fine Thread Task :=
  let posted :=
    { fine.core with callers := Function.update fine.core.callers caller none }
  { fine with
    core := if posted.queue.length = 1 then posted.asyncSend else posted
    mutex := .guarded caller .signalled }

/-- The second half of the move into the local vector. -/
def emptyOut : Fine Thread Task :=
  match fine.move with
  | .moving contents =>
      { fine with
        core := { fine.core with loop := .draining contents, queue := [] }
        move := .outside }
  | _ => fine

def next : Step Thread Task → Fine Thread Task
  | .other action => { fine with core := TaskQueue.next fine.core action }
  | .lock caller => { fine with mutex := .guarded caller .entered }
  | .read caller =>
      { fine with mutex := .guarded caller (.seen fine.core.queue) }
  | .write caller => fine.writeBack caller
  | .signal caller => fine.signalSize caller
  | .unlock _ => { fine with mutex := .free }
  | .acquireDrop => { fine with mutex := .dropping }
  | .releaseDrop => { fine with mutex := .free, move := .referring }
  | .take => { fine with move := .moving fine.core.queue }
  | .empty => fine.emptyOut
  | .skip => { fine with core := { fine.core with loop := .idle } }

end Fine

/-- All interleavings of the posting threads with the loop thread, with the
halves of pushes and moves apart. -/
def fineSystem (Thread Task : Type) [DecidableEq Thread] :
    System (Fine Thread Task) (Step Thread Task) where
  start := {}
  enabled := Enabled
  next := Fine.next

instance fineSystem.decidableEnabled (fine : Fine Thread Task)
    (step : Step Thread Task) :
    Decidable ((fineSystem Thread Task).enabled fine step) :=
  Enabled.decidable fine step

/-- Every pushed task was started, waits in the local vector or waits in the
queue, once and in the order of the pushes. -/
def Conserved (fine : Fine Thread Task) : Prop :=
  fine.core.started ++ (fine.core.loop.rest ++ fine.core.queue) =
    fine.core.pushed

/-- The second half of a push or of a move finds the vector as the first half
left it. -/
def Undisturbed (fine : Fine Thread Task) : Step Thread Task → Prop
  | .write _ => ∀ caller contents,
      fine.mutex = .guarded caller (.seen contents) →
        contents = fine.core.queue
  | .empty => ∀ contents, fine.move = .moving contents →
      contents = fine.core.queue
  | _ => True

/-- A move does not overlap a guarded section: as if it were made with the
mutex held. -/
def Exclusive (fine : Fine Thread Task) : Step Thread Task → Prop
  | .lock _ => fine.move.isMoving = false
  | .take => fine.mutex.isFree
  | _ => True

instance Exclusive.decidable (fine : Fine Thread Task) :
    ∀ step, Decidable (Exclusive fine step)
  | .lock _ => inferInstanceAs (Decidable (_ = false))
  | .take => inferInstanceAs (Decidable (_ = true))
  | .other _ => .isTrue trivial
  | .read _ => .isTrue trivial
  | .write _ => .isTrue trivial
  | .signal _ => .isTrue trivial
  | .unlock _ => .isTrue trivial
  | .acquireDrop => .isTrue trivial
  | .releaseDrop => .isTrue trivial
  | .empty => .isTrue trivial
  | .skip => .isTrue trivial

theorem guardedAt_iff {mutex : MutexState Thread Task}
    {caller : Option Thread} {isAt : Progress Task → Bool} :
    mutex.guardedAt caller isAt = true ↔
      ∃ progress, mutex = .guarded caller progress ∧ isAt progress := by
  cases mutex with
  | free => simp [MutexState.guardedAt]
  | dropping => simp [MutexState.guardedAt]
  | guarded holder progress =>
      simp only [MutexState.guardedAt, Bool.and_eq_true, decide_eq_true_eq,
        MutexState.guarded.injEq]
      constructor
      · rintro ⟨rfl, isAt⟩
        exact ⟨progress, ⟨rfl, rfl⟩, isAt⟩
      · rintro ⟨_, ⟨rfl, rfl⟩, isAt⟩
        exact ⟨rfl, isAt⟩

omit [DecidableEq Thread] in
theorem eq_free_of_isFree {mutex : MutexState Thread Task}
    (isFree : mutex.isFree) : mutex = .free := by
  cases mutex with
  | free => rfl
  | _ => cases isFree

theorem exists_seen {mutex : MutexState Thread Task}
    {caller : Option Thread}
    (hasSeen : mutex.guardedAt caller Progress.hasSeen) :
    ∃ contents, mutex = .guarded caller (.seen contents) := by
  obtain ⟨progress, isMutex, seen⟩ := guardedAt_iff.mp hasSeen
  cases progress with
  | seen contents => exact ⟨contents, isMutex⟩
  | _ => cases seen

omit [DecidableEq Thread] in
theorem exists_moving {move : Move Task} (isMoving : move.isMoving) :
    ∃ contents, move = .moving contents := by
  cases move with
  | moving contents => exact ⟨contents, rfl⟩
  | _ => cases isMoving

/-- Whoever has not pushed yet has its task; `drop` and the move belong to an
entered `_run_task`. -/
structure Placed (fine : Fine Thread Task) : Prop where
  posting : ∀ caller progress, fine.mutex = .guarded caller progress →
    progress.isSignalled = false → (fine.core.callers caller).isSome
  dropping : fine.mutex = .dropping →
    fine.core.loop.isEntered ∧ fine.core.hasData
  moving : fine.move.isOutside = false →
    fine.core.loop.isEntered ∧ fine.core.hasData
  apart : fine.mutex = .dropping → fine.move.isOutside

private theorem callers_other {state : State Thread Task}
    {mutex : MutexState Thread Task} {action : Action Thread Task}
    (leaves : leavesQueue action) (returned : Returned mutex action)
    {caller : Option Thread} {progress : Progress Task}
    (isMutex : mutex = .guarded caller progress) :
    (TaskQueue.next state action).callers caller = state.callers caller := by
  cases action with
  | postTask poster task =>
      have other : caller ≠ poster := by
        rintro rfl
        rw [isMutex] at returned
        simp [Returned, MutexState.guardedAt] at returned
      simp only [TaskQueue.next, State.checkRunning]
      split
      · exact Function.update_of_ne other _ _
      · rfl
  | push poster => cases leaves
  | drop => cases leaves
  | call =>
      simp only [TaskQueue.next, State.callNext]
      split <;> rfl
  | erase =>
      simp only [TaskQueue.next, State.eraseCurrent]
      split <;> rfl
  | _ => rfl

private theorem entered_other {state : State Thread Task}
    {action : Action Thread Task} (leaves : leavesQueue action)
    (isEnabled : TaskQueue.Enabled state action)
    (entered : state.loop.isEntered ∧ state.hasData) :
    (TaskQueue.next state action).loop.isEntered ∧
      (TaskQueue.next state action).hasData := by
  have isEntered := loop_of_isEntered entered.1
  cases action with
  | postTask poster task =>
      simp only [TaskQueue.next, State.checkRunning]
      split <;> exact entered
  | push poster => cases leaves
  | drop => cases leaves
  | _ => simp [TaskQueue.Enabled, isEntered, LoopState.isIdle,
      LoopState.hasNext, LoopState.isInTask, LoopState.atEnd] at isEnabled

theorem placed_next (fine : Fine Thread Task) (step : Step Thread Task)
    (placed : Placed fine) (isEnabled : Enabled fine step) :
    Placed (fine.next step) := by
  cases step with
  | other action =>
      obtain ⟨leaves, coarse, returned⟩ := isEnabled
      constructor
      · intro caller progress isMutex notSignalled
        simp only [Fine.next, callers_other leaves returned isMutex]
        exact placed.posting caller progress isMutex notSignalled
      · intro isMutex
        exact entered_other leaves coarse (placed.dropping isMutex)
      · intro inside
        exact entered_other leaves coarse (placed.moving inside)
      · exact placed.apart
  | lock caller =>
      refine ⟨?_, by simp [Fine.next], placed.moving, by simp [Fine.next]⟩
      rintro _ _ ⟨rfl, rfl⟩ _
      exact isEnabled.1
  | read caller =>
      obtain ⟨progress, isMutex, entered⟩ := guardedAt_iff.mp isEnabled
      refine ⟨?_, by simp [Fine.next], placed.moving, by simp [Fine.next]⟩
      rintro _ _ ⟨rfl, rfl⟩ _
      apply placed.posting caller progress isMutex
      cases progress with
      | entered => rfl
      | _ => cases entered
  | write caller =>
      obtain ⟨contents, isMutex⟩ := exists_seen isEnabled
      have posting := placed.posting caller _ isMutex rfl
      obtain ⟨task, isTask⟩ := Option.isSome_iff_exists.mp posting
      simp only [Fine.next, Fine.writeBack, isMutex, isTask]
      refine ⟨?_, by simp, placed.moving, by simp⟩
      rintro _ _ ⟨rfl, rfl⟩ _
      exact posting
  | signal caller =>
      refine ⟨?_, by simp [Fine.next, Fine.signalSize], ?_,
        by simp [Fine.next, Fine.signalSize]⟩
      · rintro _ _ ⟨rfl, rfl⟩ notSignalled
        cases notSignalled
      · intro inside
        simp only [Fine.next, Fine.signalSize]
        split <;> exact placed.moving inside
  | unlock caller =>
      exact ⟨by simp [Fine.next], by simp [Fine.next], placed.moving,
        by simp [Fine.next]⟩
  | acquireDrop =>
      obtain ⟨entered, hasData, _, outside⟩ := isEnabled
      exact ⟨by simp [Fine.next], fun _ => ⟨entered, hasData⟩,
        placed.moving, fun _ => outside⟩
  | releaseDrop =>
      refine ⟨by simp [Fine.next], by simp [Fine.next], fun _ => ?_,
        by simp [Fine.next]⟩
      cases isMutex : fine.mutex with
      | dropping => exact placed.dropping isMutex
      | _ => simp [Enabled, isMutex, MutexState.isDropping] at isEnabled
  | take =>
      cases isMove : fine.move with
      | referring =>
          have inside : fine.move.isOutside = false := by rw [isMove]; rfl
          refine ⟨placed.posting, placed.dropping,
            fun _ => placed.moving inside, fun dropping => ?_⟩
          cases inside.symm.trans (placed.apart dropping)
      | _ => simp [Enabled, isMove, Move.isReferring] at isEnabled
  | empty =>
      obtain ⟨contents, isMove⟩ := exists_moving isEnabled
      have inside : fine.move.isOutside = false := by rw [isMove]; rfl
      have notDropping : fine.mutex ≠ .dropping := by
        intro dropping
        cases inside.symm.trans (placed.apart dropping)
      simp only [Fine.next, Fine.emptyOut, isMove]
      exact ⟨placed.posting, fun dropping => (notDropping dropping).elim,
        by simp [Move.isOutside], fun _ => rfl⟩
  | skip =>
      have noData : ¬fine.core.hasData = true := by simp [isEnabled.2]
      refine ⟨placed.posting, ?_, ?_, placed.apart⟩
      · intro dropping
        exact (noData (placed.dropping dropping).2).elim
      · intro inside
        exact (noData (placed.moving inside).2).elim

theorem placed_start : Placed (fineSystem Thread Task).start where
  posting := by simp [fineSystem]
  dropping := by simp [fineSystem]
  moving := by simp [fineSystem, Move.isOutside]
  apart := by simp [fineSystem]

private theorem conserved_other {state : State Thread Task}
    {action : Action Thread Task} (leaves : leavesQueue action)
    (isEnabled : TaskQueue.Enabled state action) :
    (TaskQueue.next state action).started ++
        ((TaskQueue.next state action).loop.rest ++
          (TaskQueue.next state action).queue) =
          (TaskQueue.next state action).pushed ↔
      state.started ++ (state.loop.rest ++ state.queue) = state.pushed := by
  cases action with
  | postTask poster task =>
      simp only [TaskQueue.next, State.checkRunning]
      split <;> exact Iff.rfl
  | push poster => cases leaves
  | drop => cases leaves
  | wake =>
      rw [loop_of_isIdle isEnabled.2.2]
      exact Iff.rfl
  | call =>
      obtain ⟨task, rest, draining⟩ := loop_of_hasNext isEnabled
      simp [TaskQueue.next, State.callNext, draining, LoopState.rest]
  | erase =>
      obtain ⟨task, rest, running⟩ := loop_of_isInTask isEnabled.1
      simp [TaskQueue.next, State.eraseCurrent, running, LoopState.rest]
  | leave =>
      rw [loop_of_atEnd isEnabled]
      exact Iff.rfl
  | _ => exact Iff.rfl

private theorem conserved_write {fine : Fine Thread Task}
    {caller : Option Thread} {contents : List Task} (placed : Placed fine)
    (conserved : Conserved fine)
    (isMutex : fine.mutex = .guarded caller (.seen contents)) :
    Conserved (fine.next (.write caller)) ↔ contents = fine.core.queue := by
  have posting := placed.posting caller _ isMutex rfl
  obtain ⟨task, isTask⟩ := Option.isSome_iff_exists.mp posting
  simp only [Fine.next, Fine.writeBack, isMutex, isTask, Conserved,
    ← List.append_assoc]
  rw [Conserved, ← List.append_assoc] at conserved
  rw [← conserved, List.append_cancel_right_eq, List.append_cancel_left_eq]

private theorem conserved_empty {fine : Fine Thread Task}
    {contents : List Task} (placed : Placed fine)
    (conserved : Conserved fine) (isMove : fine.move = .moving contents) :
    Conserved (fine.next .empty) ↔ contents = fine.core.queue := by
  have inside : fine.move.isOutside = false := by rw [isMove]; rfl
  have entered := loop_of_isEntered (placed.moving inside).1
  have all : fine.core.started ++ fine.core.queue = fine.core.pushed := by
    simpa [Conserved, entered, LoopState.rest] using conserved
  simp only [Fine.next, Fine.emptyOut, isMove, Conserved, LoopState.rest,
    List.append_nil]
  rw [← all, List.append_cancel_left_eq]

/-- Among states that have kept every task, exactly the undisturbed steps go
on doing so. -/
theorem conserved_next_iff {fine : Fine Thread Task} {step : Step Thread Task}
    (placed : Placed fine) (conserved : Conserved fine)
    (isEnabled : Enabled fine step) :
    Conserved (fine.next step) ↔ Undisturbed fine step := by
  cases step with
  | other action =>
      refine iff_of_true ?_ trivial
      exact (conserved_other isEnabled.1 isEnabled.2.1).mpr conserved
  | write caller =>
      obtain ⟨contents, isMutex⟩ := exists_seen isEnabled
      rw [conserved_write placed conserved isMutex]
      constructor
      · intro same holder seen isSeen
        rw [isMutex] at isSeen
        cases isSeen
        exact same
      · intro undisturbed
        exact undisturbed caller contents isMutex
  | empty =>
      obtain ⟨contents, isMove⟩ := exists_moving isEnabled
      rw [conserved_empty placed conserved isMove]
      constructor
      · intro same taken isTaken
        rw [isMove] at isTaken
        cases isTaken
        exact same
      · intro undisturbed
        exact undisturbed contents isMove
  | signal caller =>
      refine iff_of_true ?_ trivial
      simp only [Fine.next, Fine.signalSize]
      split <;> exact conserved
  | skip =>
      refine iff_of_true ?_ trivial
      rw [Conserved, loop_of_isEntered isEnabled.1] at conserved
      exact conserved
  | _ => exact iff_of_true conserved trivial

/-- Every run: no state of it has lost, doubled or reordered a task if and
only if each half of a push or a move finds the vector its first half has
read. -/
theorem conserved_iff {steps : List (Step Thread Task)}
    (run : (fineSystem Thread Task).Run (fineSystem Thread Task).start steps) :
    (fineSystem Thread Task).AllSteps
        (fun fine step => Conserved (fine.next step))
        (fineSystem Thread Task).start steps ↔
      (fineSystem Thread Task).AllSteps Undisturbed
        (fineSystem Thread Task).start steps := by
  have kept : ∀ (fine : Fine Thread Task) (step : Step Thread Task),
      Placed fine ∧ Conserved fine → Enabled fine step →
        Undisturbed fine step →
          Placed (fine.next step) ∧ Conserved (fine.next step) := by
    rintro fine step ⟨placed, conserved⟩ isEnabled undisturbed
    refine ⟨placed_next fine step placed isEnabled, ?_⟩
    exact (conserved_next_iff placed conserved isEnabled).mpr undisturbed
  refine run.allSteps_congr kept ?_ ⟨placed_start, rfl⟩
  rintro fine step ⟨placed, conserved⟩ isEnabled
  exact conserved_next_iff placed conserved isEnabled

/-- A push between the halves of a move. -/
theorem conserved_iff_disturbed :
    let steps : List (Step (Fin 1) Nat) :=
      [.other (.postTask (some 0) 7), .lock (some 0), .read (some 0),
        .write (some 0), .signal (some 0), .unlock (some 0), .other .wake,
        .acquireDrop, .releaseDrop, .take, .other (.postTask (some 0) 8),
        .lock (some 0), .read (some 0), .write (some 0), .empty]
    ¬(fineSystem (Fin 1) Nat).AllSteps
      (fun fine step => Conserved (fine.next step))
      (fineSystem (Fin 1) Nat).start steps := by
  intro steps
  rw [conserved_iff (by decide)]
  rintro ⟨_, _, _, _, _, _, _, _, _, _, _, _, _, _, undisturbed, _⟩
  cases undisturbed [7] rfl

/-- A state with other tasks in the vector and in the record of pushes. -/
def withTasks (state : State Thread Task) (queue pushed : List Task) :
    State Thread Task :=
  { state with queue, pushed }

/-- The coarse state behind a fine one: what was written and not signalled
yet is not pushed yet. -/
def coarse (fine : Fine Thread Task) : State Thread Task :=
  match fine.mutex with
  | .guarded _ .written =>
      withTasks fine.core fine.core.queue.dropLast fine.core.pushed.dropLast
  | _ => fine.core

/-- A push happens at the signal and a move when the vector is emptied. -/
def coarseLabels : Step Thread Task → List (Action Thread Task)
  | .other action => [action]
  | .signal caller => [.push caller]
  | .empty => [.drop]
  | .skip => [.drop]
  | _ => []

omit [DecidableEq Thread] in
theorem coarse_eq_core {fine : Fine Thread Task}
    (notWritten : ∀ caller, fine.mutex ≠ .guarded caller .written) :
    coarse fine = fine.core := by
  rw [coarse]
  split
  · rename_i caller isMutex
    exact (notWritten caller isMutex).elim
  · rfl

omit [DecidableEq Thread] in
theorem coarse_written {fine : Fine Thread Task} {caller : Option Thread}
    (isMutex : fine.mutex = .guarded caller .written) :
    coarse fine = withTasks fine.core fine.core.queue.dropLast
      fine.core.pushed.dropLast := by
  rw [coarse, isMutex]

section Other

variable (state : State Thread Task) {action : Action Thread Task}
  (leaves : leavesQueue action) (queue pushed : List Task)
include leaves

omit [DecidableEq Thread] in
theorem enabled_withTasks :
    TaskQueue.Enabled (withTasks state queue pushed) action ↔
      TaskQueue.Enabled state action := by
  cases action with
  | push caller => cases leaves
  | drop => cases leaves
  | _ => exact Iff.rfl

theorem next_withTasks :
    TaskQueue.next (withTasks state queue pushed) action =
      withTasks (TaskQueue.next state action) queue pushed := by
  cases action with
  | push caller => cases leaves
  | drop => cases leaves
  | postTask caller task =>
      by_cases running : state.running = true
      · simp [TaskQueue.next, State.checkRunning, withTasks, running]
      · simp [TaskQueue.next, State.checkRunning, withTasks, running]
  | call =>
      cases loop : state.loop with
      | draining batch =>
          cases batch <;>
            simp [TaskQueue.next, State.callNext, withTasks, loop]
      | _ => simp [TaskQueue.next, State.callNext, withTasks, loop]
  | erase =>
      cases loop : state.loop with
      | _ => simp [TaskQueue.next, State.eraseCurrent, withTasks, loop]
  | _ => rfl

theorem tasks_other :
    (TaskQueue.next state action).queue = state.queue ∧
      (TaskQueue.next state action).pushed = state.pushed := by
  have kept := next_withTasks state leaves state.queue state.pushed
  have same : withTasks state state.queue state.pushed = state := rfl
  rw [same] at kept
  rw [kept]
  exact ⟨rfl, rfl⟩

end Other

/-- What holds along runs whose moves are exclusive: a guarded section and a
move find the vector as they left it. -/
structure Settled (fine : Fine Thread Task) : Prop where
  placed : Placed fine
  seen : ∀ caller contents, fine.mutex = .guarded caller (.seen contents) →
    contents = fine.core.queue
  written : ∀ caller, fine.mutex = .guarded caller .written →
    ∃ task front posted, fine.core.callers caller = some task ∧
      fine.core.queue = front ++ [task] ∧ fine.core.pushed = posted ++ [task]
  moving : ∀ contents, fine.move = .moving contents →
    fine.mutex = .free ∧ contents = fine.core.queue

theorem settled_start : Settled (fineSystem Thread Task).start where
  placed := placed_start
  seen := by simp [fineSystem]
  written := by simp [fineSystem]
  moving := by simp [fineSystem]

private theorem settled_other {fine : Fine Thread Task}
    {action : Action Thread Task} (settled : Settled fine)
    (isEnabled : Enabled fine (.other action)) :
    Settled (fine.next (.other action)) := by
  have placed := placed_next fine _ settled.placed isEnabled
  obtain ⟨leaves, _, returned⟩ := isEnabled
  have tasks := tasks_other fine.core leaves
  constructor
  case placed => exact placed
  case seen =>
    intro caller contents isMutex
    simp only [Fine.next, tasks.1]
    exact settled.seen caller contents isMutex
  case written =>
    intro caller isMutex
    simp only [Fine.next, tasks.1, tasks.2,
      callers_other leaves returned isMutex]
    exact settled.written caller isMutex
  case moving =>
    intro contents isMove
    simp only [Fine.next, tasks.1]
    exact settled.moving contents isMove

private theorem settled_write {fine : Fine Thread Task}
    {caller : Option Thread} (settled : Settled fine)
    (isEnabled : Enabled fine (.write caller)) :
    Settled (fine.next (.write caller)) := by
  have placed := placed_next fine _ settled.placed isEnabled
  obtain ⟨contents, isMutex⟩ := exists_seen isEnabled
  have posting := settled.placed.posting caller _ isMutex rfl
  obtain ⟨task, isTask⟩ := Option.isSome_iff_exists.mp posting
  have result : fine.next (.write caller) =
      { fine with
        core := withTasks fine.core (contents ++ [task])
          (fine.core.pushed ++ [task])
        mutex := .guarded caller .written } := by
    simp only [Fine.next, Fine.writeBack, isMutex, isTask, withTasks]
  rw [result] at placed ⊢
  refine ⟨placed, by simp, ?_, ?_⟩
  · rintro _ ⟨rfl, _⟩
    exact ⟨task, contents, fine.core.pushed, isTask, rfl, rfl⟩
  · intro moved isMove
    have isFree := (settled.moving moved isMove).1
    rw [isMutex] at isFree
    cases isFree

theorem settled_next (fine : Fine Thread Task) (step : Step Thread Task)
    (settled : Settled fine) (isEnabled : Enabled fine step)
    (exclusive : Exclusive fine step) : Settled (fine.next step) := by
  have placed := placed_next fine step settled.placed isEnabled
  cases step with
  | other action => exact settled_other settled isEnabled
  | lock caller =>
      refine ⟨placed, by simp [Fine.next], by simp [Fine.next], ?_⟩
      intro contents isMove
      have notMoving : fine.move.isMoving = false := exclusive
      have isMoving : fine.move = .moving contents := isMove
      simp [isMoving, Move.isMoving] at notMoving
  | read caller =>
      refine ⟨placed, ?_, by simp [Fine.next], ?_⟩
      · rintro _ _ ⟨rfl, rfl⟩
        rfl
      · intro contents isMove
        obtain ⟨progress, isMutex, _⟩ := guardedAt_iff.mp isEnabled
        have isFree := (settled.moving contents isMove).1
        rw [isMutex] at isFree
        cases isFree
  | write caller => exact settled_write settled isEnabled
  | signal caller =>
      refine ⟨placed, by simp [Fine.next, Fine.signalSize],
        by simp [Fine.next, Fine.signalSize], ?_⟩
      intro contents isMove
      obtain ⟨progress, isMutex, _⟩ := guardedAt_iff.mp isEnabled
      have isFree := (settled.moving contents isMove).1
      rw [isMutex] at isFree
      cases isFree
  | unlock caller =>
      refine ⟨placed, by simp [Fine.next], by simp [Fine.next], ?_⟩
      intro contents isMove
      exact ⟨rfl, (settled.moving contents isMove).2⟩
  | acquireDrop =>
      refine ⟨placed, by simp [Fine.next], by simp [Fine.next], ?_⟩
      intro contents isMove
      have isMoving : fine.move = .moving contents := isMove
      have outside : fine.move.isOutside := isEnabled.2.2.2
      simp [isMoving, Move.isOutside] at outside
  | releaseDrop =>
      exact ⟨placed, by simp [Fine.next], by simp [Fine.next],
        by simp [Fine.next]⟩
  | take =>
      refine ⟨placed, settled.seen, settled.written, ?_⟩
      rintro _ ⟨rfl⟩
      exact ⟨eq_free_of_isFree exclusive, rfl⟩
  | empty =>
      obtain ⟨contents, isMove⟩ := exists_moving isEnabled
      have isFree := (settled.moving contents isMove).1
      simp only [Fine.next, Fine.emptyOut, isMove] at placed ⊢
      exact ⟨placed, by simp [isFree], by simp [isFree], by simp⟩
  | skip => exact ⟨placed, settled.seen, settled.written, settled.moving⟩

private theorem coarse_other {fine : Fine Thread Task}
    {action : Action Thread Task} (leaves : leavesQueue action)
    (isEnabled : TaskQueue.Enabled fine.core action) :
    TaskQueue.Enabled (coarse fine) action ∧
      coarse (fine.next (.other action)) =
        TaskQueue.next (coarse fine) action := by
  by_cases written : ∃ caller, fine.mutex = .guarded caller .written
  · obtain ⟨caller, isMutex⟩ := written
    have after : (fine.next (.other action)).mutex =
        .guarded caller .written := isMutex
    have tasks := tasks_other fine.core leaves
    rw [coarse_written isMutex, coarse_written after, next_withTasks _ leaves,
      enabled_withTasks _ leaves]
    simp only [Fine.next, tasks.1, tasks.2]
    exact ⟨isEnabled, trivial⟩
  · have notWritten := not_exists.mp written
    have after : ∀ caller, (fine.next (.other action)).mutex ≠
        .guarded caller .written := notWritten
    rw [coarse_eq_core notWritten, coarse_eq_core after]
    exact ⟨isEnabled, rfl⟩

private theorem coarse_signal {fine : Fine Thread Task}
    {caller : Option Thread} (settled : Settled fine)
    (isEnabled : Enabled fine (.signal caller)) :
    TaskQueue.Enabled (coarse fine) (.push caller) ∧
      coarse (fine.next (.signal caller)) =
        TaskQueue.next (coarse fine) (.push caller) := by
  obtain ⟨progress, isMutex, isWritten⟩ := guardedAt_iff.mp isEnabled
  cases progress with
  | written =>
      obtain ⟨task, front, posted, isTask, queue, pushed⟩ :=
        settled.written caller isMutex
      have before : coarse fine = withTasks fine.core front posted := by
        rw [coarse_written isMutex, queue, pushed, List.dropLast_concat,
          List.dropLast_concat]
      have callers : (coarse fine).callers caller = some task := by
        rw [before]
        exact isTask
      have inside : TaskQueue.Enabled (coarse fine) (.push caller) := by
        simp [TaskQueue.Enabled, callers]
      refine ⟨inside, ?_⟩
      obtain ⟨other, isOther, pushes⟩ := next_push inside
      rw [callers, Option.some.injEq] at isOther
      subst isOther
      rw [pushes, before, coarse_eq_core (by simp [Fine.next, Fine.signalSize])]
      simp only [Fine.next, Fine.signalSize, State.lockedPush, withTasks,
        ← queue, ← pushed]
  | _ => cases isWritten

private theorem coarse_empty {fine : Fine Thread Task}
    (settled : Settled fine) (isEnabled : Enabled fine .empty) :
    TaskQueue.Enabled (coarse fine) .drop ∧
      coarse (fine.next .empty) = TaskQueue.next (coarse fine) .drop := by
  obtain ⟨contents, isMove⟩ := exists_moving isEnabled
  obtain ⟨isFree, same⟩ := settled.moving contents isMove
  have inside : fine.move.isOutside = false := by rw [isMove]; rfl
  obtain ⟨entered, hasData⟩ := settled.placed.moving inside
  have before : coarse fine = fine.core := coarse_eq_core (by simp [isFree])
  have after : (fine.next .empty).mutex = .free := by
    simp [Fine.next, Fine.emptyOut, isMove, isFree]
  rw [before, coarse_eq_core (by simp [after])]
  refine ⟨entered, ?_⟩
  simp [Fine.next, Fine.emptyOut, isMove, TaskQueue.next, State.dropQueue,
    hasData, same]

private theorem coarse_skip {fine : Fine Thread Task}
    (isEnabled : Enabled fine .skip) :
    TaskQueue.Enabled (coarse fine) .drop ∧
      coarse (fine.next .skip) = TaskQueue.next (coarse fine) .drop := by
  obtain ⟨entered, noData⟩ := isEnabled
  by_cases written : ∃ caller, fine.mutex = .guarded caller .written
  · obtain ⟨caller, isMutex⟩ := written
    have after : (fine.next .skip).mutex = .guarded caller .written := isMutex
    rw [coarse_written isMutex, coarse_written after]
    refine ⟨entered, ?_⟩
    simp [Fine.next, TaskQueue.next, State.dropQueue, withTasks, noData]
  · have notWritten := not_exists.mp written
    have after : ∀ caller, (fine.next .skip).mutex ≠ .guarded caller .written :=
      notWritten
    rw [coarse_eq_core notWritten, coarse_eq_core after]
    refine ⟨entered, ?_⟩
    simp [Fine.next, TaskQueue.next, State.dropQueue, noData]

private theorem coarse_write {fine : Fine Thread Task}
    {caller : Option Thread} (settled : Settled fine)
    (isEnabled : Enabled fine (.write caller)) :
    coarse (fine.next (.write caller)) = coarse fine := by
  obtain ⟨contents, isMutex⟩ := exists_seen isEnabled
  have same := settled.seen caller contents isMutex
  have posting := settled.placed.posting caller _ isMutex rfl
  obtain ⟨task, isTask⟩ := Option.isSome_iff_exists.mp posting
  have after : (fine.next (.write caller)).mutex =
      .guarded caller .written := by
    simp [Fine.next, Fine.writeBack, isMutex, isTask]
  rw [coarse_written after, coarse_eq_core (by simp [isMutex])]
  simp [Fine.next, Fine.writeBack, isMutex, isTask, withTasks, same]

omit [DecidableEq Thread] in
private theorem coarse_kept {before after : Fine Thread Task}
    (notBefore : ∀ caller, before.mutex ≠ .guarded caller .written)
    (notAfter : ∀ caller, after.mutex ≠ .guarded caller .written)
    (core : after.core = before.core) : coarse after = coarse before := by
  rw [coarse_eq_core notBefore, coarse_eq_core notAfter, core]

/-- The other steps of a guarded section or a move are not seen by the coarse
model. -/
private theorem coarse_silent {fine : Fine Thread Task}
    {step : Step Thread Task} (settled : Settled fine)
    (isEnabled : Enabled fine step) (silent : coarseLabels step = []) :
    coarse (fine.next step) = coarse fine := by
  cases step with
  | other action => cases silent
  | signal caller => cases silent
  | empty => cases silent
  | skip => cases silent
  | write caller => exact coarse_write settled isEnabled
  | take => rfl
  | lock caller =>
      have isFree := eq_free_of_isFree isEnabled.2
      exact coarse_kept (by simp [isFree]) (by simp [Fine.next]) rfl
  | acquireDrop =>
      have isFree := eq_free_of_isFree isEnabled.2.2.1
      exact coarse_kept (by simp [isFree]) (by simp [Fine.next]) rfl
  | read caller =>
      obtain ⟨progress, isMutex, entered⟩ := guardedAt_iff.mp isEnabled
      have notWritten : progress ≠ .written := by
        rintro rfl
        cases entered
      exact coarse_kept (by simp [isMutex, notWritten])
        (by simp [Fine.next]) rfl
  | unlock caller =>
      obtain ⟨progress, isMutex, signalled⟩ := guardedAt_iff.mp isEnabled
      have notWritten : progress ≠ .written := by
        rintro rfl
        cases signalled
      exact coarse_kept (by simp [isMutex, notWritten])
        (by simp [Fine.next]) rfl
  | releaseDrop =>
      have dropping : fine.mutex.isDropping := isEnabled
      have notWritten : ∀ caller, fine.mutex ≠ .guarded caller .written := by
        intro caller isMutex
        rw [isMutex] at dropping
        cases dropping
      exact coarse_kept notWritten (by simp [Fine.next]) rfl

private theorem coarse_step {fine : Fine Thread Task}
    {step : Step Thread Task} (settled : Settled fine)
    (isEnabled : Enabled fine step) :
    (system Thread Task).Run (coarse fine) (coarseLabels step) ∧
      coarse (fine.next step) =
        (system Thread Task).after (coarse fine) (coarseLabels step) := by
  cases step with
  | other action =>
      obtain ⟨enabled, result⟩ := coarse_other isEnabled.1 isEnabled.2.1
      exact ⟨⟨enabled, trivial⟩, result⟩
  | signal caller =>
      obtain ⟨enabled, result⟩ := coarse_signal settled isEnabled
      exact ⟨⟨enabled, trivial⟩, result⟩
  | empty =>
      obtain ⟨enabled, result⟩ := coarse_empty settled isEnabled
      exact ⟨⟨enabled, trivial⟩, result⟩
  | skip =>
      obtain ⟨enabled, result⟩ := coarse_skip isEnabled
      exact ⟨⟨enabled, trivial⟩, result⟩
  | _ => exact ⟨trivial, coarse_silent settled isEnabled rfl⟩

/-- With exclusive moves the halves refine the whole pushes and moves. -/
def refinesCoarse :
    Refinement ((fineSystem Thread Task).restrict Exclusive)
      (system Thread Task) where
  view := coarse
  labels := fun _ step => coarseLabels step
  invariant := Settled
  start_invariant := settled_start
  next_invariant := fun fine step settled isEnabled =>
    settled_next fine step settled isEnabled.1 isEnabled.2
  start_view := rfl
  step_run := fun _ _ settled isEnabled =>
    (coarse_step settled isEnabled.1).1
  step_view := fun _ _ settled isEnabled =>
    (coarse_step settled isEnabled.1).2

/-- Every run whose moves are exclusive: while the mutex is free the fine state
is a reachable coarse one, so every task is where the mailbox has it, and
before the destruction a waiting task has a wake-up on its way; nothing waits
when the loop is idle without one. -/
theorem exclusive_delivers {fine : Fine Thread Task}
    (reachable : (fineSystem Thread Task).ReachableWhen Exclusive fine)
    (isFree : fine.mutex = .free) :
    (system Thread Task).Reachable fine.core ∧ Conserved fine ∧
      (fine.core.handle = .active →
        (fine.core.queue ≠ [] →
          fine.core.pending ∨ fine.core.loop.isEntered) ∧
        (fine.core.pending = false → fine.core.loop.isIdle →
          fine.core.executed = fine.core.pushed)) := by
  have seen := refinesCoarse.reachable_view
    (System.reachable_restrict.mpr reachable)
  have view : refinesCoarse.view fine = fine.core :=
    coarse_eq_core (by simp [isFree])
  rw [view] at seen
  have conserved : Conserved fine := started_append_waiting seen
  have awake := awake_of_reachable seen
  refine ⟨seen, conserved, fun isActive => ⟨awake.awake isActive, ?_⟩⟩
  intro notPending isIdle
  have idle := loop_of_isIdle isIdle
  have executed := executed_append_current seen
  simp only [idle, LoopState.current, List.append_nil] at executed
  have empty : fine.core.queue = [] := by
    by_contra nonempty
    rcases awake.awake isActive nonempty with pending | entered
    · simp [notPending] at pending
    · simp [idle, LoopState.isEntered] at entered
  simpa [Conserved, ← executed, idle, empty, LoopState.rest] using conserved

/-- One task, posted and drained with the mutex free at the move. -/
theorem exclusive_delivers_one :
    let steps : List (Step (Fin 1) Nat) :=
      [.other (.postTask (some 0) 7), .lock (some 0), .read (some 0),
        .write (some 0), .signal (some 0), .unlock (some 0), .other .wake,
        .acquireDrop, .releaseDrop, .take, .empty, .other .call,
        .other .erase, .other .leave]
    ((fineSystem (Fin 1) Nat).after {} steps).core.executed = [7] := by
  intro steps
  have reachable : (fineSystem (Fin 1) Nat).ReachableWhen Exclusive
      ((fineSystem (Fin 1) Nat).after {} steps) :=
    ⟨steps, by decide, rfl⟩
  exact ((exclusive_delivers reachable rfl).2.2 rfl).2 rfl rfl

end QuickApp.TaskQueue.Atomicity
