import QuickApp.Shell.Teardown
import QuickApp.TaskQueue.Delivery
import QuickApp.TaskQueue.Teardown

/-!
# The loop of the application thread

`runApplication` runs its loop on its own stack, with the task queue on it, and
returns when `uv_loop_close` has succeeded.  The queue belongs to the shell:
`QAPP_EVENT_DESTROY` resets `js_task_queue_`, and a shell that dies with its
queue destroys it on the thread that dropped the last reference.

Here the two threads of the teardown and the task queue take their steps
together.  Of libuv this adds that a loop is not closed before its handles
are.
-/

namespace QuickApp.Shell.AppLoop

/-- The two threads with the shell, the task queue on the loop, and whether the
queue was destroyed on another thread than that of its loop. -/
structure State (Thread Task : Type) where
  teardown : Teardown.State
  queue : TaskQueue.State Thread Task := {}
  foreignClose : Bool := false

/-- A step of the teardown, or of the task queue and the threads that post to
it. -/
inductive Step (Thread Task : Type) where
  | teardown (event : Teardown.Event)
  | queue (action : TaskQueue.Action Thread Task)

/-- In `uv_run`: for good at first, then once after each failed try to close
the loop. -/
def runsLoop : Teardown.AppThread → Bool
  | .inLoop => true
  | .cleanup tries => tries < 200
  | _ => false

/-- After `ensureUVLoopCleanup`. -/
def isPastCleanup : Teardown.AppThread → Bool
  | .notifying => true
  | .finished => true
  | _ => false

/-- A step of `runApplication` itself, not from inside its loop. -/
def isOfThread : Teardown.Event → Bool
  | .loopReturns => true
  | .messageLoopDestroy => true
  | .closeFails => true
  | .closes => true
  | .cleanupTimeout => true
  | .notifyExit => true
  | _ => false

def isClientCall : Teardown.Event → Bool
  | .clientCall _ => true
  | _ => false

def isCloses : Teardown.Event → Bool
  | .closes => true
  | _ => false

/-- Posting needs no loop; the destruction of the queue and the end of its loop
are steps of the teardown. -/
def isTaken (appThread : Teardown.AppThread) {Thread Task : Type} :
    TaskQueue.Action Thread Task → Bool
  | .postTask _ _ => true
  | .push _ => true
  | .destroy => false
  | .closeLoop => false
  | _ => runsLoop appThread

/-- `js_task_queue_.reset()` on a queue. -/
def resetsQueue (before after : Teardown.State) : Bool :=
  before.shell.jsTaskQueue && !after.shell.jsTaskQueue

/-- `~ShellApp` with a queue. -/
def diesWithQueue (before after : Teardown.State) : Bool :=
  before.alive && !after.alive && after.shell.jsTaskQueue

variable {Thread Task : Type} [DecidableEq Thread]

namespace State

variable (state : State Thread Task)

/-- The loop thread is between its callbacks, or a task has called the
framework. -/
def CallsOut : Prop :=
  state.queue.loop.isIdle ∨
    (state.queue.loop.isInTask ∧ (state.queue.callers none).isNone)

/-- What a step of the teardown does to the queue. -/
def queueActions (event : Teardown.Event) :
    List (TaskQueue.Action Thread Task) :=
  if isCloses event then [.closeLoop]
  else if resetsQueue state.teardown (state.teardown.next event) then
    [.destroy]
  else
    []

def next : Step Thread Task → State Thread Task
  | .teardown event =>
      { teardown := state.teardown.next event
        queue := (TaskQueue.system Thread Task).after state.queue
          (state.queueActions event)
        foreignClose := state.foreignClose ||
          diesWithQueue state.teardown (state.teardown.next event) }
  | .queue action =>
      { state with queue := TaskQueue.next state.queue action }

/-- The program order of all threads.  A queue destroyed on a foreign thread is
a race with its loop, and nothing is said about what comes after it. -/
def Enabled : Step Thread Task → Prop
  | .teardown event => state.foreignClose = false ∧
      state.teardown.Enabled event ∧
      (isOfThread event → state.queue.loop.isIdle) ∧
      (isClientCall event → state.CallsOut) ∧
      (isCloses event → state.queue.handle = .closed)
  | .queue action => state.foreignClose = false ∧
      state.teardown.aborted = false ∧
      TaskQueue.Enabled state.queue action ∧
      isTaken state.teardown.appThread action

instance CallsOut.decidable : Decidable state.CallsOut :=
  inferInstanceAs (Decidable (_ ∨ (_ ∧ _)))

instance Enabled.decidable : ∀ step, Decidable (state.Enabled step)
  | .teardown _ => inferInstanceAs
      (Decidable (_ ∧ _ ∧ (_ → _) ∧ (_ → _) ∧ (_ → _)))
  | .queue _ => inferInstanceAs (Decidable (_ ∧ _ ∧ _ ∧ _))

end State

/-- All interleavings after an asynchronous `create`. -/
def system (Thread Task : Type) [DecidableEq Thread] (framework : Framework)
    (url : List Char) : System (State Thread Task) (Step Thread Task) where
  start := { teardown := (Teardown.system framework url).start }
  enabled := State.Enabled
  next := State.next

instance system.decidableEnabled (framework : Framework) (url : List Char)
    (state : State Thread Task) (step : Step Thread Task) :
    Decidable ((system Thread Task framework url).enabled state step) :=
  State.Enabled.decidable state step

section Teardown

variable (state : Teardown.State)

/-- The event that resets `js_task_queue_`. -/
def destroyEvent : Teardown.Event :=
  .clientCall (.onAppNotifyEvent .destroy)

private theorem jsTaskQueue_onNotifyEvent (app : ShellApp)
    {event : QAppEvent} (other : event ≠ .destroy) :
    (app.onNotifyEvent event).1.jsTaskQueue = app.jsTaskQueue := by
  cases event with
  | destroy => exact (other rfl).elim
  | _ => rfl

private theorem jsTaskQueue_throughClient {method : ShellApp → ShellApp}
    (kept : (method state.shell).jsTaskQueue = state.shell.jsTaskQueue) :
    (state.throughClient method).shell.jsTaskQueue =
      state.shell.jsTaskQueue := by
  simp only [Teardown.State.throughClient]
  split
  · rfl
  · split
    · rfl
    · exact kept

theorem jsTaskQueue_next {event : Teardown.Event}
    (other : event ≠ destroyEvent) :
    (state.next event).shell.jsTaskQueue = state.shell.jsTaskQueue := by
  cases event with
  | stop =>
      simp only [Teardown.State.next, ShellApp.stop]
      split
      · rfl
      · rfl
  | poll delivers =>
      simp only [Teardown.State.next]
      split
      · apply jsTaskQueue_throughClient
        simp only [ShellApp.onAppDestroy]
        split
        · rfl
        · rfl
      · rfl
  | clientCall call =>
      apply jsTaskQueue_throughClient
      cases call with
      | onAppNotifyEvent event =>
          apply jsTaskQueue_onNotifyEvent
          rintro rfl
          exact other rfl
      | _ => rfl
  | closeFails =>
      simp only [Teardown.State.next]
      split
      · rfl
      · rfl
  | notifyExit =>
      simp only [Teardown.State.next, Teardown.State.throughSelf]
      split
      · have other : QAppEvent.exit ≠ .destroy := by
          intro impossible
          cases impossible
        exact jsTaskQueue_onNotifyEvent _ other
      · rfl
  | _ => rfl

theorem jsTaskQueue_of_next {event : Teardown.Event}
    (kept : (state.next event).shell.jsTaskQueue) :
    state.shell.jsTaskQueue := by
  by_cases destroys : event = destroyEvent
  · subst destroys
    simp only [destroyEvent, Teardown.State.next,
      Teardown.State.throughClient] at kept
    split at kept
    · exact kept
    · split at kept
      · exact kept
      · cases kept
  · rw [jsTaskQueue_next state destroys] at kept
    exact kept

theorem eq_destroyEvent_of_resetsQueue {event : Teardown.Event}
    (resets : resetsQueue state (state.next event)) :
    event = destroyEvent := by
  by_contra other
  rw [resetsQueue, jsTaskQueue_next state other, Bool.and_not_self] at resets
  cases resets

/-- Only `runApplication` itself moves the application thread. -/
theorem appThread_next {event : Teardown.Event}
    (other : isOfThread event = false) :
    (state.next event).appThread = state.appThread := by
  cases event with
  | poll delivers =>
      simp only [Teardown.State.next]
      split
      · simp
      · rfl
  | clientCall call => simp [Teardown.State.next]
  | stop => rfl
  | leaveWait => rfl
  | timeout => rfl
  | release => rfl
  | resetShellApp => rfl
  | _ => cases other

end Teardown

/-- Where the queue is while the threads are where they are. -/
structure Linked (state : State Thread Task) : Prop where
  active : state.teardown.shell.jsTaskQueue → state.queue.handle = .active
  closed : isPastCleanup state.teardown.appThread →
    state.queue.handle = .closed
  idle : runsLoop state.teardown.appThread = false →
    state.queue.loop.isIdle
  loopOpen : isPastCleanup state.teardown.appThread = false →
    state.queue.loopOpen

theorem linked_start (framework : Framework) (url : List Char) :
    Linked (system Thread Task framework url).start where
  active _ := rfl
  closed past := by cases past
  idle outside := by cases outside
  loopOpen _ := rfl

omit [DecidableEq Thread] in
private theorem posts_of_outside {appThread : Teardown.AppThread}
    {action : TaskQueue.Action Thread Task}
    (taken : isTaken appThread action)
    (outside : runsLoop appThread = false) :
    (∃ caller task, action = .postTask caller task) ∨
      ∃ caller, action = .push caller := by
  cases action with
  | postTask caller task => exact Or.inl ⟨caller, task, rfl⟩
  | push caller => exact Or.inr ⟨caller, rfl⟩
  | destroy => cases taken
  | closeLoop => cases taken
  | _ =>
      have inLoop : runsLoop appThread = true := taken
      rw [outside] at inLoop
      cases inLoop

omit [DecidableEq Thread] in
private theorem runsLoop_of_past {appThread : Teardown.AppThread}
    (past : isPastCleanup appThread) : runsLoop appThread = false := by
  cases appThread with
  | notifying => rfl
  | finished => rfl
  | _ => cases past

/-- What posting leaves as it is. -/
private structure SameLoop (before after : TaskQueue.State Thread Task) :
    Prop where
  handle : after.handle = before.handle
  loop : after.loop = before.loop
  loopOpen : after.loopOpen = before.loopOpen
  executed : after.executed = before.executed
  running : after.running = before.running

private theorem sameLoop_postTask (queue : TaskQueue.State Thread Task)
    (caller : Option Thread) (task : Task) :
    SameLoop queue (TaskQueue.next queue (.postTask caller task)) := by
  simp only [TaskQueue.next, TaskQueue.State.checkRunning]
  split
  · exact ⟨rfl, rfl, rfl, rfl, rfl⟩
  · exact ⟨rfl, rfl, rfl, rfl, rfl⟩

private theorem sameLoop_push (queue : TaskQueue.State Thread Task)
    (caller : Option Thread) :
    SameLoop queue (TaskQueue.next queue (.push caller)) := by
  simp only [TaskQueue.next, TaskQueue.State.lockedPush]
  split
  · split
    · exact ⟨rfl, rfl, rfl, rfl, rfl⟩
    · exact ⟨rfl, rfl, rfl, rfl, rfl⟩
  · exact ⟨rfl, rfl, rfl, rfl, rfl⟩

private theorem sameLoop_of_outside {appThread : Teardown.AppThread}
    (queue : TaskQueue.State Thread Task)
    {action : TaskQueue.Action Thread Task}
    (taken : isTaken appThread action)
    (outside : runsLoop appThread = false) :
    SameLoop queue (TaskQueue.next queue action) := by
  rcases posts_of_outside taken outside with ⟨caller, task, rfl⟩ | ⟨caller, rfl⟩
  · exact sameLoop_postTask queue caller task
  · exact sameLoop_push queue caller

/-- In a step of the queue only the close callback moves the handle and stops
the posting, and nothing closes the loop. -/
theorem handle_queue (queue : TaskQueue.State Thread Task)
    {appThread : Teardown.AppThread}
    {action : TaskQueue.Action Thread Task}
    (taken : isTaken appThread action) :
    (action ≠ .closed →
      (TaskQueue.next queue action).handle = queue.handle ∧
      (TaskQueue.next queue action).running = queue.running) ∧
    (TaskQueue.next queue action).loopOpen = queue.loopOpen := by
  cases action with
  | postTask caller task =>
      have same := sameLoop_postTask queue caller task
      exact ⟨fun _ => ⟨same.handle, same.running⟩, same.loopOpen⟩
  | push caller =>
      have same := sameLoop_push queue caller
      exact ⟨fun _ => ⟨same.handle, same.running⟩, same.loopOpen⟩
  | drop =>
      simp only [TaskQueue.next, TaskQueue.State.dropQueue]
      split
      · exact ⟨fun _ => ⟨rfl, rfl⟩, rfl⟩
      · exact ⟨fun _ => ⟨rfl, rfl⟩, rfl⟩
  | call =>
      simp only [TaskQueue.next, TaskQueue.State.callNext]
      split
      · exact ⟨fun _ => ⟨rfl, rfl⟩, rfl⟩
      · exact ⟨fun _ => ⟨rfl, rfl⟩, rfl⟩
  | erase =>
      simp only [TaskQueue.next, TaskQueue.State.eraseCurrent]
      split
      · exact ⟨fun _ => ⟨rfl, rfl⟩, rfl⟩
      · exact ⟨fun _ => ⟨rfl, rfl⟩, rfl⟩
  | closed => exact ⟨fun other => (other rfl).elim, rfl⟩
  | destroy => cases taken
  | closeLoop => cases taken
  | _ => exact ⟨fun _ => ⟨rfl, rfl⟩, rfl⟩

private theorem handle_of_active {queue : TaskQueue.State Thread Task}
    (active : queue.handle = .active) {appThread : Teardown.AppThread}
    {action : TaskQueue.Action Thread Task}
    (isEnabled : TaskQueue.Enabled queue action)
    (taken : isTaken appThread action) :
    (TaskQueue.next queue action).handle = .active := by
  have other : action ≠ .closed := by
    rintro rfl
    have closing := isEnabled.1
    rw [active] at closing
    cases closing
  rw [((handle_queue queue taken).1 other).1]
  exact active

private theorem linked_queue {state : State Thread Task}
    (linked : Linked state) {action : TaskQueue.Action Thread Task}
    (isEnabled : TaskQueue.Enabled state.queue action)
    (taken : isTaken state.teardown.appThread action) :
    Linked (state.next (.queue action)) where
  active kept := handle_of_active (linked.active kept) isEnabled taken
  closed past := by
    have same := sameLoop_of_outside state.queue taken (runsLoop_of_past past)
    rw [State.next, same.handle]
    exact linked.closed past
  idle outside := by
    have same := sameLoop_of_outside state.queue taken outside
    rw [State.next, same.loop]
    exact linked.idle outside
  loopOpen before := by
    rw [State.next, (handle_queue state.queue taken).2]
    exact linked.loopOpen before

/-- What a step of the teardown does to the queue. -/
theorem teardown_cases (state : State Thread Task)
    (event : Teardown.Event) :
    (event = .closes ∧ (state.next (.teardown event)).queue =
        { state.queue with loopOpen := false }) ∨
    (event = destroyEvent ∧ state.teardown.shell.jsTaskQueue ∧
      ¬(state.teardown.next event).shell.jsTaskQueue ∧
      (state.next (.teardown event)).queue =
        { state.queue with handle := .closing }) ∨
    (event ≠ .closes ∧
      (state.teardown.next event).shell.jsTaskQueue =
        state.teardown.shell.jsTaskQueue ∧
      (state.next (.teardown event)).queue = state.queue) := by
  by_cases closes : event = .closes
  · subst closes
    exact Or.inl ⟨rfl, rfl⟩
  · have notCloses : isCloses event = false := by
      cases event with
      | closes => exact (closes rfl).elim
      | _ => rfl
    right
    simp only [State.next, State.queueActions, notCloses]
    by_cases resets :
        resetsQueue state.teardown (state.teardown.next event)
    · obtain ⟨before, after⟩ := Bool.and_eq_true_iff.mp resets
      rw [resets]
      exact Or.inl ⟨eq_destroyEvent_of_resetsQueue state.teardown resets,
        before, by simpa using after, rfl⟩
    · have same : (state.teardown.next event).shell.jsTaskQueue =
          state.teardown.shell.jsTaskQueue := by
        cases before : state.teardown.shell.jsTaskQueue with
        | false =>
            by_contra kept
            have reset := jsTaskQueue_of_next state.teardown
              (eq_true_of_ne_false kept)
            rw [before] at reset
            cases reset
        | true => simpa [resetsQueue, before] using resets
      rw [eq_false_of_ne_true resets]
      exact Or.inr ⟨closes, same, rfl⟩

/-- The cleanup is left by the close of the loop and by nothing else. -/
private theorem isPastCleanup_next {state : Teardown.State}
    {event : Teardown.Event} (isEnabled : state.Enabled event) :
    isPastCleanup (state.next event).appThread ↔
      isPastCleanup state.appThread ∨ event = .closes := by
  cases ofThread : isOfThread event with
  | false =>
      rw [appThread_next state ofThread]
      constructor
      · exact Or.inl
      · rintro (past | rfl)
        · exact past
        · cases ofThread
  | true =>
      have isEnabled := isEnabled.2
      cases event with
      | loopReturns =>
          rw [isEnabled.1]
          simp [Teardown.State.next, isPastCleanup]
      | messageLoopDestroy =>
          rw [isEnabled]
          simp [Teardown.State.next, isPastCleanup]
      | closeFails =>
          have canClose : state.appThread.canClose = true := isEnabled
          cases thread : state.appThread with
          | cleanup tries =>
              cases tries with
              | zero =>
                  rw [thread] at canClose
                  cases canClose
              | succ tries =>
                  simp [Teardown.State.next, thread, isPastCleanup]
          | _ =>
              rw [thread] at canClose
              cases canClose
      | closes => simp [Teardown.State.next, isPastCleanup]
      | cleanupTimeout =>
          rw [isEnabled]
          simp [Teardown.State.next, isEnabled, isPastCleanup]
      | notifyExit =>
          rw [isEnabled]
          simp [Teardown.State.next, isPastCleanup]
      | _ => cases ofThread

private theorem linked_teardown {state : State Thread Task}
    (linked : Linked state) {event : Teardown.Event}
    (isEnabled : state.Enabled (.teardown event)) :
    Linked (state.next (.teardown event)) := by
  obtain ⟨_, teardownEnabled, ofThread, _, closesClosed⟩ := isEnabled
  have past := isPastCleanup_next teardownEnabled
  have idle : runsLoop (state.teardown.next event).appThread = false →
      state.queue.loop.isIdle := by
    intro outside
    cases moves : isOfThread event with
    | true => exact ofThread moves
    | false =>
        rw [appThread_next state.teardown moves] at outside
        exact linked.idle outside
  have loopOpen : isPastCleanup (state.teardown.next event).appThread = false →
      state.queue.loopOpen := by
    intro open_
    apply linked.loopOpen
    rw [Bool.eq_false_iff] at open_ ⊢
    exact fun wasPast => open_ (past.mpr (Or.inl wasPast))
  rcases teardown_cases state event with ⟨rfl, queue⟩ |
    ⟨rfl, before, after, queue⟩ | ⟨other, same, queue⟩
  · constructor
    · intro kept
      have active := linked.active (jsTaskQueue_of_next state.teardown kept)
      rw [closesClosed rfl] at active
      cases active
    · intro _
      rw [queue]
      exact closesClosed rfl
    · rw [queue]
      exact idle
    · intro open_
      rw [State.next, Bool.eq_false_iff] at open_
      exact (open_ (past.mpr (Or.inr rfl))).elim
  · have active := linked.active before
    constructor
    · intro kept
      exact (after kept).elim
    · intro isPast
      rcases past.mp isPast with wasPast | impossible
      · rw [linked.closed wasPast] at active
        cases active
      · cases impossible
    · rw [queue]
      exact idle
    · rw [queue]
      exact loopOpen
  · constructor
    · intro kept
      rw [queue]
      rw [State.next, same] at kept
      exact linked.active kept
    · intro isPast
      rw [queue]
      rcases past.mp isPast with wasPast | closes
      · exact linked.closed wasPast
      · exact (other closes).elim
    · rw [queue]
      exact idle
    · rw [queue]
      exact loopOpen

theorem linked_next (state : State Thread Task) (step : Step Thread Task)
    (linked : Linked state) (isEnabled : state.Enabled step) :
    Linked (state.next step) := by
  cases step with
  | teardown event => exact linked_teardown linked isEnabled
  | queue action =>
      obtain ⟨_, _, queueEnabled, taken⟩ := isEnabled
      exact linked_queue linked queueEnabled taken

section Components

variable (framework : Framework) (url : List Char)

/-- The threads of the teardown take their own steps. -/
def refinesTeardown :
    Refinement (system Thread Task framework url)
      (Teardown.system framework url) where
  view := State.teardown
  labels _ step := match step with
    | .teardown event => [event]
    | .queue _ => []
  invariant _ := True
  start_invariant := trivial
  next_invariant _ _ _ _ := trivial
  start_view := rfl
  step_run state step _ isEnabled := by
    cases step with
    | teardown event => exact ⟨isEnabled.2.1, trivial⟩
    | queue action => trivial
  step_view state step _ _ := by
    cases step with
    | teardown event => rfl
    | queue action => rfl

private theorem not_past_of_canClose {appThread : Teardown.AppThread}
    (canClose : appThread.canClose) : isPastCleanup appThread = false := by
  cases appThread with
  | cleanup tries => rfl
  | _ => cases canClose

private theorem queueActions_run {state : State Thread Task}
    (linked : Linked state) {event : Teardown.Event}
    (isEnabled : state.Enabled (.teardown event)) :
    (TaskQueue.system Thread Task).Run state.queue
      (state.queueActions event) := by
  obtain ⟨_, teardownEnabled, ofThread, callsOut, closesClosed⟩ := isEnabled
  rw [State.queueActions]
  split
  · rename_i closes
    cases event with
    | closes =>
        have loopOpen := linked.loopOpen
          (not_past_of_canClose teardownEnabled.2)
        exact ⟨⟨closesClosed rfl, ofThread rfl, loopOpen⟩, trivial⟩
    | _ => cases closes
  · split
    · rename_i resets
      have destroys := eq_destroyEvent_of_resetsQueue state.teardown resets
      subst destroys
      have active := linked.active (Bool.and_eq_true_iff.mp resets).1
      exact ⟨⟨active, callsOut rfl⟩, trivial⟩
    · trivial

/-- The task queue takes the steps of a task queue. -/
def refinesQueue :
    Refinement (system Thread Task framework url)
      (TaskQueue.system Thread Task) where
  view := State.queue
  labels state step := match step with
    | .teardown event => state.queueActions event
    | .queue action => [action]
  invariant := Linked
  start_invariant := linked_start framework url
  next_invariant := linked_next
  start_view := rfl
  step_run state step linked isEnabled := by
    cases step with
    | teardown event => exact queueActions_run linked isEnabled
    | queue action => exact ⟨isEnabled.2.2.1, trivial⟩
  step_view state step _ _ := by
    cases step with
    | teardown event => rfl
    | queue action => rfl

end Components

private theorem stopped_next (queue : TaskQueue.State Thread Task)
    (action : TaskQueue.Action Thread Task)
    (stopped : queue.handle = .closed → queue.running = false)
    (_ : TaskQueue.Enabled queue action) :
    (TaskQueue.next queue action).handle = .closed →
      (TaskQueue.next queue action).running = false := by
  by_cases closes : action = .closed
  · subst closes
    exact fun _ => rfl
  · by_cases taken : isTaken .inLoop action
    · obtain ⟨handle, running⟩ := (handle_queue queue taken).1 closes
      rw [handle, running]
      exact stopped
    · cases action with
      | destroy =>
          intro impossible
          cases impossible
      | closeLoop => exact stopped
      | _ => exact (taken rfl).elim

theorem running_of_closed {queue : TaskQueue.State Thread Task}
    (reachable : (TaskQueue.system Thread Task).Reachable queue)
    (closed : queue.handle = .closed) : queue.running = false := by
  have stopped : queue.handle = .closed → queue.running = false := by
    apply reachable.invariant
    · intro impossible
      cases impossible
    · exact stopped_next
  exact stopped closed

/-- The end of the application thread and all that can come after it. -/
private structure Over (last : TaskQueue.State Thread Task)
    (state : State Thread Task) : Prop where
  past : isPastCleanup state.teardown.appThread
  running : state.queue.running = false
  executed : state.queue.executed = last.executed
  callers : ∀ caller task, state.queue.callers caller = some task →
    last.callers caller = some task

private theorem over_teardown {last : TaskQueue.State Thread Task}
    {state : State Thread Task} (ended : Over last state)
    {event : Teardown.Event} (isEnabled : state.teardown.Enabled event) :
    Over last (state.next (.teardown event)) := by
  have past : isPastCleanup (state.teardown.next event).appThread :=
    (isPastCleanup_next isEnabled).mpr (Or.inl ended.past)
  have queue : (state.next (.teardown event)).queue.running =
        state.queue.running ∧
      (state.next (.teardown event)).queue.executed = state.queue.executed ∧
      (state.next (.teardown event)).queue.callers = state.queue.callers := by
    rcases teardown_cases state event with ⟨_, queue⟩ | ⟨_, _, _, queue⟩ |
      ⟨_, _, queue⟩ <;> rw [queue] <;> exact ⟨rfl, rfl, rfl⟩
  obtain ⟨running, executed, callers⟩ := queue
  refine ⟨past, running.trans ended.running, executed.trans ended.executed, ?_⟩
  rw [callers]
  exact ended.callers

private theorem over_queue {last : TaskQueue.State Thread Task}
    {state : State Thread Task} (ended : Over last state)
    {action : TaskQueue.Action Thread Task}
    (taken : isTaken state.teardown.appThread action) :
    Over last (state.next (.queue action)) := by
  have outside := runsLoop_of_past ended.past
  have same := sameLoop_of_outside state.queue taken outside
  refine ⟨ended.past, same.running.trans ended.running,
    same.executed.trans ended.executed, ?_⟩
  intro caller task inside
  apply ended.callers
  rcases posts_of_outside taken outside with ⟨other, posted, rfl⟩ | ⟨other, rfl⟩
  · simpa [State.next, TaskQueue.next, TaskQueue.State.checkRunning,
      ended.running] using inside
  · rw [← inside]
    symm
    simp only [State.next, TaskQueue.next] at inside ⊢
    split at inside
    · have pushed : ∀ task,
          (state.queue.lockedPush other task).callers =
            Function.update state.queue.callers other none := by
        intro task
        rw [TaskQueue.State.lockedPush]
        split
        · rfl
        · rfl
      rw [pushed] at inside ⊢
      by_cases own : caller = other
      · subst own
        simp at inside
      · rw [Function.update_of_ne own]
    · rfl

private theorem over_next {last : TaskQueue.State Thread Task}
    (state : State Thread Task) (step : Step Thread Task)
    (ended : Over last state) (isEnabled : state.Enabled step) :
    Over last (state.next step) := by
  cases step with
  | teardown event => exact over_teardown ended isEnabled.2.1
  | queue action => exact over_queue ended isEnabled.2.2.2

private theorem jsTaskQueue_start (framework : Framework) (url : List Char) :
    (Teardown.system framework url).start.shell.jsTaskQueue := by
  simp only [Teardown.system, ShellApp.create, ShellApp.new,
    ShellApp.initGUIContext, ShellApp.runApplication,
    ShellApp.initApplication]
  split
  · rfl
  · rfl

private theorem destroyEvent_mem (framework : Framework) (url : List Char)
    {steps : List (Step Thread Task)}
    (run : (system Thread Task framework url).Run
      (system Thread Task framework url).start steps)
    (reset : ((system Thread Task framework url).after
      (system Thread Task framework url).start
        steps).teardown.shell.jsTaskQueue = false) :
    .teardown destroyEvent ∈ steps := by
  by_contra absent
  have others : (system Thread Task framework url).AllSteps
      (fun _ step => step ≠ .teardown destroyEvent)
      (system Thread Task framework url).start steps := by
    apply System.AllSteps.of_forall
    intro _ step member same
    rw [same] at member
    exact absent member
  have keeps : ∀ (state : State Thread Task) (step : Step Thread Task),
      state.teardown.shell.jsTaskQueue = true → state.Enabled step →
      step ≠ .teardown destroyEvent →
      (state.next step).teardown.shell.jsTaskQueue = true := by
    intro state step holds _ other
    cases step with
    | queue action => exact holds
    | teardown event =>
        have otherEvent : event ≠ destroyEvent := by
          rintro rfl
          exact other rfl
        exact (jsTaskQueue_next state.teardown otherEvent).trans holds
  have kept := (run.runWhen others).invariant keeps
    (by exact jsTaskQueue_start framework url)
  rw [reset] at kept
  cases kept

/-- The last reference to the shell is dropped without its queue, so that
`~ShellApp` does not destroy the queue on the UI thread. -/
def DestroyedFirst (state : State Thread Task) : Step Thread Task → Prop
  | .teardown .resetShellApp => state.teardown.shell.jsTaskQueue = false
  | _ => True

instance DestroyedFirst.decidable (state : State Thread Task) :
    ∀ step, Decidable (DestroyedFirst state step)
  | .teardown .resetShellApp => inferInstanceAs (Decidable (_ = false))
  | .teardown .stop => .isTrue trivial
  | .teardown (.poll _) => .isTrue trivial
  | .teardown .leaveWait => .isTrue trivial
  | .teardown .timeout => .isTrue trivial
  | .teardown .release => .isTrue trivial
  | .teardown (.clientCall _) => .isTrue trivial
  | .teardown .loopReturns => .isTrue trivial
  | .teardown .messageLoopDestroy => .isTrue trivial
  | .teardown .closeFails => .isTrue trivial
  | .teardown .closes => .isTrue trivial
  | .teardown .cleanupTimeout => .isTrue trivial
  | .teardown .notifyExit => .isTrue trivial
  | .queue _ => .isTrue trivial

/-- In every interleaving in which the queue is not destroyed on the UI thread:
when the application thread has closed its loop, `QAPP_EVENT_DESTROY` had
reached the shell, posting is stopped and every pushed task was executed or is
still in the queue.  It stays there: whatever comes after, no task is executed
and no call gets into `PostTask` any more. -/
theorem application_thread_ends (framework : Framework) (url : List Char)
    {steps : List (Step Thread Task)}
    (run : (system Thread Task framework url).RunWhen DestroyedFirst
      (system Thread Task framework url).start steps) :
    let state := (system Thread Task framework url).after
      (system Thread Task framework url).start steps
    isPastCleanup state.teardown.appThread →
      .teardown destroyEvent ∈ steps ∧
      state.queue.running = false ∧
      state.queue.executed ++ state.queue.queue = state.queue.pushed ∧
      ∀ more, (system Thread Task framework url).Run state more →
        let later := (system Thread Task framework url).after state more
        later.queue.executed = state.queue.executed ∧
        ∀ caller task, later.queue.callers caller = some task →
          state.queue.callers caller = some task := by
  intro state past
  have linked : Linked state :=
    run.run.invariant linked_next (linked_start framework url)
  have reachable : (TaskQueue.system Thread Task).Reachable state.queue :=
    (refinesQueue framework url).reachable_view ⟨steps, run.run, rfl⟩
  have closed := linked.closed past
  have running := running_of_closed reachable closed
  refine ⟨?_, running, ?_, ?_⟩
  · apply destroyEvent_mem framework url run.run
    rw [Bool.eq_false_iff]
    intro kept
    have active := linked.active kept
    rw [closed] at active
    cases active
  · have idle := TaskQueue.loop_of_isIdle
      (linked.idle (runsLoop_of_past past))
    have order := TaskQueue.started_append_waiting reachable
    have executed := TaskQueue.executed_append_current reachable
    rw [idle] at order executed
    simp only [TaskQueue.LoopState.current, List.append_nil] at executed
    rw [executed]
    exact order
  · intro more moreRun later
    have ended : Over state.queue later :=
      moreRun.invariant over_next
        ⟨past, running, rfl, fun _ _ inside => inside⟩
    exact ⟨ended.executed, ended.callers⟩

/-- A task is executed and another one left behind by the destruction; then
the two threads part. -/
def leavesTask : List (Step Unit Nat) :=
  [.queue (.postTask (some ()) 7), .queue (.push (some ())), .queue .wake,
    .queue .drop, .queue .call, .queue .erase, .queue .leave,
    .queue (.postTask (some ()) 8), .queue (.push (some ())),
    .teardown .stop, .teardown destroyEvent, .queue .closed,
    .teardown .loopReturns, .teardown .messageLoopDestroy, .teardown .closes,
    .teardown .notifyExit, .teardown (.poll true), .teardown .leaveWait,
    .teardown .release, .teardown .resetShellApp]

/-- An application without permission manager. -/
def plainFramework : Framework where
  guiContext := 1
  application := some 2
  featureManager := fun _ => 3
  quickappPermissionManager := false

theorem application_thread_ends_leaving :
    let state := (system Unit Nat plainFramework []).after
      (system Unit Nat plainFramework []).start leavesTask
    state.queue.executed ++ [8] = state.queue.pushed := by
  intro state
  have run : (system Unit Nat plainFramework []).RunWhen DestroyedFirst
      (system Unit Nat plainFramework []).start leavesTask := by
    decide
  have left : state.queue.queue = [8] := rfl
  have ends := application_thread_ends plainFramework [] run rfl
  rw [← left]
  exact ends.2.2.1

/-- The UI thread waits for the application thread, and the close callback
finds nobody on the way to a send. -/
def Careful (state : State Thread Task) : Step Thread Task → Prop
  | .teardown event => Teardown.AppThreadFirst state.teardown event
  | .queue action => TaskQueue.QuietClose state.queue action

private theorem alive_eq {state : Teardown.State}
    (references : Teardown.References state) :
    state.alive = state.shellApp := by
  rw [Teardown.State.alive, references.self, references.context]
  cases state.uiThread with
  | _ => rfl

private theorem shellApp_next (state : Teardown.State)
    {event : Teardown.Event} (other : event ≠ .resetShellApp) :
    (state.next event).shellApp = state.shellApp := by
  cases event with
  | resetShellApp => exact (other rfl).elim
  | poll delivers =>
      simp only [Teardown.State.next]
      split
      · simp
      · rfl
  | clientCall call => simp [Teardown.State.next]
  | closeFails =>
      simp only [Teardown.State.next]
      split
      · rfl
      · rfl
  | notifyExit => simp [Teardown.State.next]
  | _ => rfl

omit [DecidableEq Thread] in
/-- The queue dies with its shell only in the reset of the last reference. -/
private theorem diesWithQueue_iff {state : State Thread Task}
    {event : Teardown.Event}
    (references : Teardown.References state.teardown)
    (isEnabled : state.teardown.Enabled event) :
    diesWithQueue state.teardown (state.teardown.next event) = false ↔
      DestroyedFirst state (.teardown event) := by
  have after := Teardown.references_next state.teardown event references
    isEnabled
  rw [diesWithQueue, alive_eq references, alive_eq after]
  by_cases resets : event = .resetShellApp
  · subst resets
    have released : state.teardown.uiThread = .released := isEnabled.2
    have held : state.teardown.shellApp = true := by
      rw [references.self, released]
      rfl
    rw [held]
    exact Iff.rfl
  · rw [shellApp_next state.teardown resets, Bool.and_not_self]
    apply iff_of_true rfl
    cases event with
    | resetShellApp => exact (resets rfl).elim
    | _ => trivial

private theorem references_next (state : State Thread Task)
    (step : Step Thread Task)
    (references : Teardown.References state.teardown)
    (isEnabled : state.Enabled step) :
    Teardown.References (state.next step).teardown := by
  cases step with
  | queue action => exact references
  | teardown event =>
      exact Teardown.references_next state.teardown event references
        isEnabled.2.1

private theorem foreignClose_next (state : State Thread Task)
    (step : Step Thread Task)
    (references : Teardown.References state.teardown)
    (isEnabled : state.Enabled step) :
    (state.next step).foreignClose = false ↔
      state.foreignClose = false ∧ DestroyedFirst state step := by
  have own : state.foreignClose = false := by
    cases step with
    | queue action => exact isEnabled.1
    | teardown event => exact isEnabled.1
  rw [and_iff_right own]
  cases step with
  | queue action => exact iff_of_true own trivial
  | teardown event =>
      rw [← diesWithQueue_iff references isEnabled.2.1]
      simp only [State.next, own, Bool.false_or]

/-- What a careful run keeps. -/
private structure Sound (state : State Thread Task) : Prop where
  linked : Linked state
  safe : Teardown.Safe state.teardown
  quiet : TaskQueue.Quiet state.queue
  own : state.foreignClose = false

omit [DecidableEq Thread] in
private theorem destroyedFirst_of_careful {state : State Thread Task}
    (linked : Linked state) {step : Step Thread Task}
    (careful : Careful state step) : DestroyedFirst state step := by
  cases step with
  | queue action => trivial
  | teardown event =>
      cases event with
      | resetShellApp =>
          have finished : state.teardown.appThread = .finished := careful
          have closed := linked.closed (by rw [finished]; rfl)
          rw [DestroyedFirst, Bool.eq_false_iff]
          intro kept
          have active := linked.active kept
          rw [closed] at active
          cases active
      | _ => trivial

private theorem quiet_teardown {state : State Thread Task}
    (quiet : TaskQueue.Quiet state.queue) (linked : Linked state)
    {event : Teardown.Event} (isEnabled : state.Enabled (.teardown event)) :
    TaskQueue.Quiet (state.next (.teardown event)).queue := by
  have run := queueActions_run linked isEnabled
  have quietClose : (TaskQueue.system Thread Task).AllSteps
      TaskQueue.QuietClose state.queue (state.queueActions event) := by
    apply System.AllSteps.of_forall
    intro _ action member
    rw [State.queueActions] at member
    split at member
    · rw [List.mem_singleton.mp member]
      trivial
    · split at member
      · rw [List.mem_singleton.mp member]
        trivial
      · cases member
  exact (run.runWhen quietClose).invariant TaskQueue.quiet_next quiet

private theorem sound_next (state : State Thread Task)
    (step : Step Thread Task) (sound : Sound state)
    (isEnabled : state.Enabled step) (careful : Careful state step) :
    Sound (state.next step) := by
  have linked := linked_next state step sound.linked isEnabled
  cases step with
  | queue action =>
      obtain ⟨_, _, queueEnabled, _⟩ := isEnabled
      exact ⟨linked, sound.safe,
        TaskQueue.quiet_next state.queue action sound.quiet queueEnabled
          careful, sound.own⟩
  | teardown event =>
      have destroyed := destroyedFirst_of_careful sound.linked careful
      refine ⟨linked, ?_, quiet_teardown sound.quiet sound.linked isEnabled,
        ?_⟩
      · exact Teardown.safe_next state.teardown event sound.safe
          isEnabled.2.1 careful
      · have own := (diesWithQueue_iff sound.safe.references
          isEnabled.2.1).mpr destroyed
        rw [State.next, sound.own, own]
        rfl

/-- In every interleaving the queue is destroyed on the thread of its loop if
and only if `QAPP_EVENT_DESTROY` has taken it from the shell before the UI
thread drops the last reference.  If moreover that thread waits for the
application thread, and the close callback finds nobody inside `PostTask` or
tasks in the queue, nobody uses what is gone: no callback a dead shell or
context, and no `PostTask` the closed handle. -/
theorem queue_destroyed_on_its_thread_iff (framework : Framework)
    (url : List Char) {steps : List (Step Thread Task)}
    (run : (system Thread Task framework url).Run
      (system Thread Task framework url).start steps) :
    let state := (system Thread Task framework url).after
      (system Thread Task framework url).start steps
    (state.foreignClose = false ↔
      (system Thread Task framework url).AllSteps DestroyedFirst
        (system Thread Task framework url).start steps) ∧
    ((system Thread Task framework url).AllSteps Careful
        (system Thread Task framework url).start steps →
      state.foreignClose = false ∧ state.teardown.faults = [] ∧
        .closed ∉ state.queue.sends) := by
  intro state
  constructor
  · have holds := run.holds_iff (fun state => state.foreignClose = false)
      references_next foreignClose_next ⟨rfl, rfl⟩
    exact holds.trans (and_iff_right rfl)
  · intro careful
    have sound : Sound state := by
      apply (run.runWhen careful).invariant sound_next
      exact
        { linked := linked_start framework url
          safe := Teardown.safe_start framework url
          quiet := TaskQueue.quiet_start
          own := rfl }
    exact ⟨sound.own, sound.safe.faults, sound.quiet.sends⟩

theorem queue_destroyed_on_its_thread_iff_inOrder :
    let state := (system Unit Nat plainFramework []).after
      (system Unit Nat plainFramework []).start leavesTask
    state.foreignClose = false ∧ state.teardown.faults = [] ∧
      .closed ∉ state.queue.sends := by
  intro state
  have run : (system Unit Nat plainFramework []).Run
      (system Unit Nat plainFramework []).start leavesTask := by
    decide
  apply (queue_destroyed_on_its_thread_iff plainFramework [] run).2
  refine ⟨trivial, trivial, trivial, trivial, trivial, trivial, trivial,
    trivial, trivial, trivial, trivial, Or.inl ?_, trivial, trivial, trivial,
    trivial, trivial, trivial, rfl, rfl, trivial⟩
  exact List.cons_ne_nil 8 []

/-- The UI thread is first: the shell dies with its queue. -/
example : ((system Unit Nat plainFramework []).after
    (system Unit Nat plainFramework []).start
    [.teardown .stop, .teardown (.poll true), .teardown .leaveWait,
      .teardown .release, .teardown .resetShellApp]).foreignClose = true := rfl

end QuickApp.Shell.AppLoop
