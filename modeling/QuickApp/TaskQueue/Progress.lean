import QuickApp.TaskQueue.Delivery

/-!
# The loop thread on its own

When nobody posts any more the loop thread needs a bounded number of steps to
run what was posted: it is woken up if there is anything to do, and every
wake-up takes the whole queue.  No order of these steps leaves a task behind,
and there is no step to wait for.

A destruction does leave tasks behind, namely those in the queue and those
pushed later.
-/

namespace QuickApp.TaskQueue

variable {Thread Task : Type}

/-- Steps of the loop and of the task it runs, other than a new post, the
destruction and what comes after that. -/
def isLoopStep : Action Thread Task → Bool
  | .push none => true
  | .wake => true
  | .drop => true
  | .call => true
  | .erase => true
  | .leave => true
  | _ => false

/-- The steps left in `_run_task` for what it has taken. -/
def LoopState.stepsLeft : LoopState Task → Nat
  | .idle => 0
  | .entered => 2
  | .draining batch => 2 * batch.length + 1
  | .inTask _ rest => 2 * rest.length + 2

/-- The steps left for everything: two for each task, three for each wake-up,
and a push with a task and a wake-up of its own. -/
def stepsLeft (state : State Thread Task) : Nat :=
  2 * state.queue.length + 3 * state.pending.toNat + state.loop.stepsLeft +
    6 * (state.callers none).isSome.toNat

theorem stepsLeft_le (state : State Thread Task) :
    stepsLeft state ≤
      2 * (state.queue.length + state.loop.batch.length) + 11 := by
  have loop : state.loop.stepsLeft ≤ 2 * state.loop.batch.length + 2 := by
    cases state.loop with
    | idle => exact Nat.zero_le 2
    | entered => exact Nat.le_refl 2
    | draining batch => exact Nat.le_succ (2 * batch.length + 1)
    | inTask task rest =>
        simp only [LoopState.stepsLeft, LoopState.batch, List.length_cons]
        omega
  have pending := Bool.toNat_le state.pending
  have caller := Bool.toNat_le (state.callers none).isSome
  rw [stepsLeft]
  omega

variable [DecidableEq Thread]

/-- On the loop thread only a running task is inside `PostTask`. -/
def OwnCall (state : State Thread Task) : Prop :=
  (state.callers none).isSome → state.loop.isInTask

theorem ownCall_next (state : State Thread Task) (action : Action Thread Task)
    (own : OwnCall state) (isEnabled : Enabled state action) :
    OwnCall (next state action) := by
  have outside : ¬state.loop.isInTask → ¬(state.callers none).isSome :=
    fun notInTask inside => notInTask (own inside)
  cases action with
  | postTask caller task =>
      simp only [next, State.checkRunning]
      split
      · intro inside
        cases caller with
        | none => exact isEnabled.2 rfl
        | some thread => exact own (by simpa using inside)
      · exact own
  | push caller =>
      obtain ⟨task, _, result⟩ := next_push isEnabled
      rw [result, State.lockedPush]
      have kept : ((Function.update state.callers caller none) none).isSome →
          state.loop.isInTask := by
        intro inside
        cases caller with
        | none => simp at inside
        | some thread => exact own (by simpa using inside)
      split
      · exact kept
      · exact kept
  | wake =>
      intro inside
      have idle := loop_of_isIdle isEnabled.2.2
      exact (outside (by simp [idle, LoopState.isInTask]) inside).elim
  | drop =>
      have entered := loop_of_isEntered isEnabled
      have absent := outside (by simp [entered, LoopState.isInTask])
      simp only [next, State.dropQueue]
      split
      · exact fun inside => (absent inside).elim
      · exact fun inside => (absent inside).elim
  | call =>
      obtain ⟨task, rest, draining⟩ := loop_of_hasNext isEnabled
      simp only [next, State.callNext, draining]
      exact fun _ => rfl
  | erase =>
      obtain ⟨task, rest, running⟩ := loop_of_isInTask isEnabled.1
      have absent := isEnabled.2
      simp only [next, State.eraseCurrent, running]
      intro inside
      simp [Option.isNone_iff_eq_none.mp absent] at inside
  | leave =>
      have atEnd := loop_of_atEnd isEnabled
      intro inside
      exact (outside (by simp [atEnd, LoopState.isInTask]) inside).elim
  | _ => exact own

/-- Before the destruction, with the tasks that the loop thread is going to
have pushed. -/
structure Turning (posted : List Task) (state : State Thread Task) : Prop where
  active : state.handle = .active
  awake : Awake state
  own : OwnCall state
  posted : state.pushed ++ (state.callers none).toList = posted

private theorem turning_next {posted : List Task} (state : State Thread Task)
    (action : Action Thread Task) (turning : Turning posted state)
    (isEnabled : Enabled state action) (loopStep : isLoopStep action) :
    Turning posted (next state action) := by
  have awake := awake_next state action turning.awake isEnabled
  have own := ownCall_next state action turning.own isEnabled
  obtain ⟨active, _, _, posted⟩ := turning
  cases action with
  | push caller =>
      cases caller with
      | some thread => cases loopStep
      | none =>
          obtain ⟨task, inside, result⟩ := next_push isEnabled
          refine { awake, own, active := ?_, posted := ?_ }
          · rw [result, State.lockedPush]
            split
            · exact active
            · exact active
          · rw [inside] at posted
            rw [result, State.lockedPush]
            split
            · simpa [State.asyncSend] using posted
            · simpa using posted
  | wake => exact { awake, own, active, posted }
  | drop =>
      simp only [next, State.dropQueue] at awake own ⊢
      split
      · rename_i hasData
        rw [if_pos hasData] at awake own
        exact { awake, own, active, posted }
      · rename_i noData
        rw [if_neg noData] at awake own
        exact { awake, own, active, posted }
  | call =>
      obtain ⟨task, rest, draining⟩ := loop_of_hasNext isEnabled
      simp only [next, State.callNext, draining] at awake own ⊢
      exact { awake, own, active, posted }
  | erase =>
      obtain ⟨task, rest, running⟩ := loop_of_isInTask isEnabled.1
      simp only [next, State.eraseCurrent, running] at awake own ⊢
      exact { awake, own, active, posted }
  | leave => exact { awake, own, active, posted }
  | _ => cases loopStep

theorem stepsLeft_next (state : State Thread Task)
    (action : Action Thread Task) (isEnabled : Enabled state action)
    (loopStep : isLoopStep action) :
    stepsLeft (next state action) + 1 ≤ stepsLeft state := by
  cases action with
  | push caller =>
      cases caller with
      | some thread => cases loopStep
      | none =>
          obtain ⟨task, inside, result⟩ := next_push isEnabled
          rw [result, State.lockedPush]
          have pending := Bool.toNat_le state.pending
          split
          · simp only [stepsLeft, State.asyncSend, inside, List.length_append,
              List.length_singleton, Function.update_self, Option.isSome_none,
              Option.isSome_some, Bool.toNat_true, Bool.toNat_false]
            omega
          · simp only [stepsLeft, inside, List.length_append,
              List.length_singleton, Function.update_self, Option.isSome_none,
              Option.isSome_some, Bool.toNat_true, Bool.toNat_false]
            omega
  | wake =>
      have idle := loop_of_isIdle isEnabled.2.2
      simp only [stepsLeft, next, idle, isEnabled.1, LoopState.stepsLeft,
        Bool.toNat_true, Bool.toNat_false]
      omega
  | drop =>
      have entered := loop_of_isEntered isEnabled
      rw [next, State.dropQueue]
      split
      · simp only [stepsLeft, entered, LoopState.stepsLeft, List.length_nil]
        omega
      · simp only [stepsLeft, entered, LoopState.stepsLeft]
        omega
  | call =>
      obtain ⟨task, rest, draining⟩ := loop_of_hasNext isEnabled
      simp only [stepsLeft, next, State.callNext, draining,
        LoopState.stepsLeft, List.length_cons]
      omega
  | erase =>
      obtain ⟨task, rest, running⟩ := loop_of_isInTask isEnabled.1
      simp only [stepsLeft, next, State.eraseCurrent, running,
        LoopState.stepsLeft]
      omega
  | leave =>
      have atEnd := loop_of_atEnd isEnabled
      simp only [stepsLeft, next, atEnd, LoopState.stepsLeft,
        List.length_nil]
      omega
  | _ => cases loopStep

/-- The loop is idle and has no wake-up to come. -/
def Drained (state : State Thread Task) : Prop :=
  state.loop.isIdle ∧ state.pending = false

omit [DecidableEq Thread] in
theorem progress_of_busy {state : State Thread Task}
    (busy : ¬state.loop.isIdle) :
    ∃ action, isLoopStep action ∧ Enabled state action := by
  cases loop : state.loop with
  | idle => exact absurd (by rw [loop]; rfl) busy
  | entered => exact ⟨.drop, rfl, by rw [Enabled, loop]; rfl⟩
  | draining batch =>
      cases batch with
      | nil => exact ⟨.leave, rfl, by rw [Enabled, loop]; rfl⟩
      | cons task rest => exact ⟨.call, rfl, by rw [Enabled, loop]; rfl⟩
  | inTask task rest =>
      by_cases inside : (state.callers none).isSome
      · exact ⟨.push none, rfl, inside⟩
      · exact ⟨.erase, rfl, by rw [loop]; rfl, by simpa using inside⟩

omit [DecidableEq Thread] in
private theorem progress_of_turning {posted : List Task}
    {state : State Thread Task} (turning : Turning posted state)
    (open_ : ¬Drained state) :
    ∃ action, isLoopStep action ∧ Enabled state action := by
  by_cases isIdle : state.loop.isIdle
  · have pending : state.pending := by
      by_contra quiet
      exact open_ ⟨isIdle, by simpa using quiet⟩
    exact ⟨.wake, rfl, pending, turning.active, isIdle⟩
  · exact progress_of_busy isIdle

/-- The loop thread from a state on, with nobody posting. -/
def loopAlone (state : State Thread Task) :
    System (State Thread Task) (Action Thread Task) :=
  ((system Thread Task).restrict fun _ action => isLoopStep action).startingAt
    state

private theorem run_loopAlone {start state : State Thread Task}
    {actions : List (Action Thread Task)} :
    (loopAlone start).Run state actions ↔
      (system Thread Task).RunWhen (fun _ action => isLoopStep action) state
        actions :=
  System.run_startingAt.trans System.run_restrict

/-- The loop thread comes to rest. -/
def loopTermination {posted : List Task} (state : State Thread Task)
    (turning : Turning posted state) :
    Termination (loopAlone state) (fun _ => true) Drained where
  measure := stepsLeft
  invariant := Turning posted
  start_invariant := turning
  next_invariant state action turning isEnabled :=
    turning_next state action turning isEnabled.1 isEnabled.2
  next_measure state action _ isEnabled :=
    stepsLeft_next state action isEnabled.1 isEnabled.2
  progress state turning open_ := by
    obtain ⟨action, loopStep, isEnabled⟩ := progress_of_turning turning open_
    exact ⟨action, rfl, isEnabled, loopStep⟩

theorem turning_of_reachable {state : State Thread Task}
    (reachable : (system Thread Task).Reachable state)
    (notDestroyed : state.handle = .active) :
    Turning (state.pushed ++ (state.callers none).toList) state where
  active := notDestroyed
  awake := awake_of_reachable reachable
  own := reachable.invariant (fun inside => by cases inside) ownCall_next
  posted := rfl

private theorem executed_of_drained {posted : List Task}
    {state : State Thread Task}
    (reachable : (system Thread Task).Reachable state)
    (turning : Turning posted state) (drained : Drained state) :
    state.executed = posted := by
  have idle := loop_of_isIdle drained.1
  have empty : state.queue = [] := by
    by_contra nonempty
    rcases turning.awake.awake turning.active nonempty with pending | entered
    · rw [drained.2] at pending
      cases pending
    · simp [idle, LoopState.isEntered] at entered
  have outside : state.callers none = none := by
    by_contra inside
    have inTask := turning.own (Option.ne_none_iff_isSome.mp inside)
    simp [idle, LoopState.isInTask] at inTask
  have started := started_append_waiting reachable
  have executed := executed_append_current reachable
  have posted := turning.posted
  simp only [idle, empty, LoopState.rest, List.append_nil] at started
  simp only [idle, LoopState.current, List.append_nil] at executed
  simp only [outside, Option.toList_none, List.append_nil] at posted
  rw [executed, started, posted]

/-- From every reachable state of a queue that is not destroyed, with nobody
posting any more: however the loop thread goes on, it takes a number of steps
bounded by the tasks left, it can always go on until it is at rest, and then
it has run everything that was pushed, and last the task its own running task
was about to push. -/
theorem loop_drains {state : State Thread Task}
    (reachable : (system Thread Task).Reachable state)
    (notDestroyed : state.handle = .active)
    {actions : List (Action Thread Task)}
    (run : (system Thread Task).RunWhen (fun _ action => isLoopStep action)
      state actions) :
    actions.length ≤
        2 * (state.queue.length + state.loop.batch.length) + 11 ∧
      ∃ rest, (system Thread Task).RunWhen
          (fun _ action => isLoopStep action) state (actions ++ rest) ∧
        ((system Thread Task).after state (actions ++ rest)).executed =
          state.pushed ++ (state.callers none).toList := by
  have turning := turning_of_reachable reachable notDestroyed
  have alone : (loopAlone state).Run state actions := run_loopAlone.mpr run
  constructor
  · have counted := (loopTermination state turning).countP_le alone
    rw [List.countP_true] at counted
    exact Nat.le_trans counted (stepsLeft_le state)
  · obtain ⟨rest, _, whole, drained⟩ :=
      (loopTermination state turning).completes alone
    have continued := run_loopAlone.mp whole
    refine ⟨rest, continued, ?_⟩
    apply executed_of_drained _ _ drained
    · obtain ⟨earlier, ran, rfl⟩ := reachable
      refine ⟨earlier ++ (actions ++ rest), ?_, ?_⟩
      · exact System.run_append.mpr ⟨ran, continued.run⟩
      · exact System.after_append _ _ _ _
    · exact whole.invariant (loopTermination state turning).next_invariant
        turning

/-- Task 1 is about to push task 2, and the loop thread runs both. -/
theorem loop_drains_reposted :
    let state := (system (Fin 1) Nat).after {}
      [.postTask (some 0) 1, .push (some 0), .wake, .drop, .call,
        .postTask none 2]
    ∃ rest, (system (Fin 1) Nat).RunWhen
        (fun _ action => isLoopStep action) state (.push none :: rest) ∧
      ((system (Fin 1) Nat).after state (.push none :: rest)).executed =
        [1, 2] := by
  intro state
  have reachable : (system (Fin 1) Nat).Reachable state :=
    ⟨_, by decide, rfl⟩
  have run : (system (Fin 1) Nat).RunWhen
      (fun _ action => isLoopStep action) state [.push none] := by
    decide
  exact (loop_drains reachable rfl run).2

/-- The queue is empty when it is destroyed, and nothing is pushed later. -/
def LeavesNothing (state : State Thread Task) : Action Thread Task → Prop
  | .destroy => state.queue = []
  | .push _ => state.handle = .active
  | _ => True

/-- A destroyed queue has no task waiting. -/
def NoneLeft (state : State Thread Task) : Prop :=
  state.handle ≠ .active → state.queue = []

/-- No `_run_task` that has not taken the queue yet outlives the handle. -/
def TakesActive (state : State Thread Task) : Prop :=
  state.loop.isEntered → state.handle = .active

theorem takesActive_next (state : State Thread Task)
    (action : Action Thread Task) (takes : TakesActive state)
    (isEnabled : Enabled state action) : TakesActive (next state action) := by
  cases action with
  | postTask caller task =>
      simp only [next, State.checkRunning]
      split
      · exact takes
      · exact takes
  | push caller =>
      obtain ⟨task, _, result⟩ := next_push isEnabled
      rw [result, State.lockedPush]
      split
      · exact takes
      · exact takes
  | wake => exact fun _ => isEnabled.2.1
  | drop =>
      simp only [next, State.dropQueue]
      split
      · exact fun impossible => by cases impossible
      · exact fun impossible => by cases impossible
  | call =>
      obtain ⟨task, rest, draining⟩ := loop_of_hasNext isEnabled
      simp only [next, State.callNext, draining]
      exact fun impossible => by cases impossible
  | erase =>
      obtain ⟨task, rest, running⟩ := loop_of_isInTask isEnabled.1
      simp only [next, State.eraseCurrent, running]
      exact fun impossible => by cases impossible
  | leave => exact fun impossible => by cases impossible
  | destroy =>
      intro entered
      have position : state.loop = .entered := loop_of_isEntered entered
      have elsewhere := isEnabled.2
      simp [position, LoopState.isIdle, LoopState.isInTask] at elsewhere
  | closed =>
      have idle := loop_of_isIdle isEnabled.2
      intro entered
      simp [next, State.closeCallback, idle, LoopState.isEntered] at entered
  | closeLoop => exact takes

private theorem noneLeft_next (state : State Thread Task)
    (action : Action Thread Task) (takes : TakesActive state)
    (isEnabled : Enabled state action) :
    NoneLeft (next state action) ↔
      NoneLeft state ∧ LeavesNothing state action := by
  cases action with
  | postTask caller task =>
      simp only [next, State.checkRunning]
      split
      · exact (and_iff_left trivial).symm
      · exact (and_iff_left trivial).symm
  | push caller =>
      obtain ⟨task, _, result⟩ := next_push isEnabled
      have handle : (state.lockedPush caller task).handle = state.handle := by
        rw [State.lockedPush]
        split
        · rfl
        · rfl
      have queue : (state.lockedPush caller task).queue ≠ [] := by
        rw [State.lockedPush]
        split
        · exact List.append_ne_nil_of_right_ne_nil _ (List.cons_ne_nil _ _)
        · exact List.append_ne_nil_of_right_ne_nil _ (List.cons_ne_nil _ _)
      rw [result, NoneLeft, handle]
      by_cases active : state.handle = .active
      · exact iff_of_true (fun other => (other active).elim)
          ⟨fun other => (other active).elim, active⟩
      · exact iff_of_false (fun none_ => queue (none_ active))
          (fun both => active both.2)
  | drop =>
      have active := takes isEnabled
      have handle : (state.dropQueue).handle = .active := by
        rw [State.dropQueue]
        split
        · exact active
        · exact active
      exact iff_of_true (fun other => (other handle).elim)
        ⟨fun other => (other active).elim, trivial⟩
  | call =>
      obtain ⟨task, rest, draining⟩ := loop_of_hasNext isEnabled
      simp only [next, State.callNext, draining]
      exact (and_iff_left trivial).symm
  | erase =>
      obtain ⟨task, rest, running⟩ := loop_of_isInTask isEnabled.1
      simp only [next, State.eraseCurrent, running]
      exact (and_iff_left trivial).symm
  | destroy =>
      have active := isEnabled.1
      constructor
      · intro none_
        exact ⟨fun other => (other active).elim,
          none_ (fun impossible => by cases impossible)⟩
      · exact fun both _ => both.2
  | closed =>
      have destroyed : state.handle ≠ .active := by
        rw [isEnabled.1]
        exact fun impossible => by cases impossible
      constructor
      · exact fun none_ => ⟨fun _ => none_ (fun impossible => by
          cases impossible), trivial⟩
      · exact fun both _ => both.1 destroyed
  | wake => exact (and_iff_left trivial).symm
  | leave => exact (and_iff_left trivial).symm
  | closeLoop => exact (and_iff_left trivial).symm

/-- In every run of a queue that has been destroyed: all pushed tasks were
executed or taken for execution if and only if the queue was empty when it was
destroyed and no call of `PostTask` pushed afterwards. -/
theorem executes_all_iff {actions : List (Action Thread Task)}
    (run : (system Thread Task).Run (system Thread Task).start actions)
    (destroyed : ((system Thread Task).after (system Thread Task).start
      actions).handle ≠ .active) :
    let state := (system Thread Task).after (system Thread Task).start actions
    state.executed ++ state.loop.batch = state.pushed ↔
      (system Thread Task).AllSteps LeavesNothing (system Thread Task).start
        actions := by
  intro state
  have reachable : (system Thread Task).Reachable state :=
    ⟨actions, run, rfl⟩
  have started := started_append_waiting reachable
  have executed := executed_append_current reachable
  have left := run.holds_iff NoneLeft takesActive_next noneLeft_next
    (fun impossible => by cases impossible)
  have startLeft : NoneLeft (system Thread Task).start := fun _ => rfl
  rw [and_iff_right startLeft] at left
  rw [← left, LoopState.batch_eq, ← List.append_assoc, executed, ← started,
    ← List.append_assoc, List.self_eq_append_right]
  exact ⟨fun empty _ => empty, fun none_ => none_ destroyed⟩

/-- The queue was drained before its destruction. -/
theorem executes_all_iff_drained :
    let state := (system (Fin 1) Nat).after {}
      [.postTask (some 0) 7, .push (some 0), .wake, .drop, .call, .erase,
        .leave, .destroy, .closed]
    state.executed ++ state.loop.batch = state.pushed := by
  have run : (system (Fin 1) Nat).Run (system (Fin 1) Nat).start
      [.postTask (some 0) 7, .push (some 0), .wake, .drop, .call, .erase,
        .leave, .destroy, .closed] := by
    decide
  have isDestroyed : ((system (Fin 1) Nat).after (system (Fin 1) Nat).start
      [.postTask (some 0) 7, .push (some 0), .wake, .drop, .call, .erase,
        .leave, .destroy, .closed]).handle ≠ .active := by
    decide
  apply (executes_all_iff run isDestroyed).mpr
  exact ⟨trivial, rfl, trivial, trivial, trivial, trivial, trivial, rfl,
    trivial, trivial⟩

end QuickApp.TaskQueue
