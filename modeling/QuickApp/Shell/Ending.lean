import QuickApp.Shell.Teardown

/-!
# The end of a teardown

`waitUIDestroy` and `ensureUVLoopCleanup` try 200 times each, and a try that
fails is not an error before the last one.  The two threads together take a
bounded number of steps whatever the framework does in between, and they cannot
wait for each other: what is left is a finished teardown or a failed check.
-/

namespace QuickApp.Shell.Teardown

/-- A step of the program itself, not a call of the framework. -/
def Event.isOwn : Event → Bool
  | .clientCall _ => false
  | _ => true

/-- Both threads are done with an application that had been created. -/
structure Finished (framework : Framework) (state : State) : Prop where
  uiThread : state.uiThread = .destroyed
  appThread : state.appThread = .finished
  context : state.shell.guiContext = none
  created : framework.application ≠ none

/-- The teardown is finished, or a failed check has ended the process. -/
def Ended (framework : Framework) (state : State) : Prop :=
  state.aborted = true ∨ Finished framework state

/-- The steps left of `onDestroy`. -/
def UIThread.stepsLeft : UIThread → Nat
  | .running => 204
  | .waiting loopLimits => loopLimits + 3
  | .waited => 2
  | .released => 1
  | .destroyed => 0

/-- The steps left of `runApplication`. -/
def AppThread.stepsLeft : AppThread → Nat
  | .inLoop => 204
  | .loopReturned => 203
  | .cleanup tries => tries + 2
  | .notifying => 1
  | .finished => 0

def State.stepsLeft (state : State) : Nat :=
  if state.aborted then 0
  else state.uiThread.stepsLeft + state.appThread.stepsLeft

theorem stepsLeft_of_running {state : State}
    (running : state.aborted = false) :
    state.stepsLeft =
      state.uiThread.stepsLeft + state.appThread.stepsLeft := by
  rw [State.stepsLeft, running]
  rfl

theorem stepsLeft_polled {uiThread : UIThread} (canPoll : uiThread.canPoll) :
    uiThread.polled.stepsLeft + 1 = uiThread.stepsLeft := by
  cases uiThread with
  | waiting loopLimits =>
      cases loopLimits with
      | zero => cases canPoll
      | succ loopLimits => rfl
  | _ => cases canPoll

theorem stepsLeft_waiting {uiThread : UIThread}
    (isWaiting : uiThread.isWaiting) : 3 ≤ uiThread.stepsLeft := by
  obtain ⟨loopLimits, rfl⟩ := exists_of_isWaiting isWaiting
  exact Nat.le_add_left 3 loopLimits

theorem exists_of_canClose {appThread : AppThread}
    (canClose : appThread.canClose) :
    ∃ tries, appThread = .cleanup (tries + 1) := by
  cases appThread with
  | cleanup tries =>
      cases tries with
      | zero => cases canClose
      | succ tries => exact ⟨tries, rfl⟩
  | _ => cases canClose

private theorem stepsLeft_lowered {state after : State}
    (running : state.aborted = false)
    (lowered : after.aborted = false →
      after.uiThread.stepsLeft + after.appThread.stepsLeft + 1 ≤
        state.uiThread.stepsLeft + state.appThread.stepsLeft)
    (positive : 0 < state.uiThread.stepsLeft + state.appThread.stepsLeft) :
    after.stepsLeft + 1 ≤ state.stepsLeft := by
  rw [stepsLeft_of_running running]
  by_cases ended : after.aborted
  · simp only [State.stepsLeft, ended, if_true]
    omega
  · have still : after.aborted = false := by simpa using ended
    rw [stepsLeft_of_running still]
    exact lowered still

private theorem stepsLeft_uiThread {state : State} (uiThread : UIThread)
    (running : state.aborted = false)
    (lowered : uiThread.stepsLeft + 1 ≤ state.uiThread.stepsLeft)
    {after : State} (thread : after.uiThread = uiThread)
    (other : after.appThread = state.appThread) :
    after.stepsLeft + 1 ≤ state.stepsLeft := by
  apply stepsLeft_lowered running
  · intro _
    rw [thread, other]
    omega
  · omega

private theorem stepsLeft_appThread {state : State} (appThread : AppThread)
    (running : state.aborted = false)
    (lowered : appThread.stepsLeft + 1 ≤ state.appThread.stepsLeft)
    {after : State} (thread : after.appThread = appThread)
    (other : after.uiThread = state.uiThread) :
    after.stepsLeft + 1 ≤ state.stepsLeft := by
  apply stepsLeft_lowered running
  · intro _
    rw [thread, other]
    omega
  · omega

/-- A step of either thread is one step less to go, and a call of the
framework none. -/
theorem stepsLeft_next (state : State) (event : Event)
    (isEnabled : state.Enabled event) :
    (state.next event).stepsLeft + (if event.isOwn then 1 else 0) ≤
      state.stepsLeft := by
  obtain ⟨running, isEnabled⟩ := isEnabled
  cases event with
  | stop =>
      refine stepsLeft_uiThread _ running ?_ rfl rfl
      rw [isEnabled]
      exact Nat.le_refl 204
  | poll delivers =>
      have rounds := stepsLeft_polled isEnabled.1
      refine stepsLeft_uiThread _ running (le_of_eq rounds) ?_ ?_
      · simp only [State.next]
        split
        · simp
        · rfl
      · simp only [State.next]
        split
        · simp
        · rfl
  | leaveWait =>
      have waiting := stepsLeft_waiting isEnabled.1
      exact stepsLeft_uiThread .waited running waiting rfl rfl
  | timeout =>
      apply stepsLeft_lowered running
      · intro still
        cases still
      · rw [isEnabled.1]
        exact Nat.add_pos_left (Nat.succ_pos 2) _
  | release =>
      refine stepsLeft_uiThread _ running ?_ rfl rfl
      rw [isEnabled]
      exact Nat.le_refl 2
  | resetShellApp =>
      refine stepsLeft_uiThread _ running ?_ rfl rfl
      rw [isEnabled]
      exact Nat.le_refl 1
  | clientCall call =>
      simp [State.next, State.stepsLeft, Event.isOwn]
  | loopReturns =>
      refine stepsLeft_appThread _ running ?_ rfl rfl
      rw [isEnabled.1]
      exact Nat.le_refl 204
  | messageLoopDestroy =>
      refine stepsLeft_appThread _ running ?_ rfl rfl
      rw [isEnabled]
      exact Nat.le_refl 203
  | closeFails =>
      obtain ⟨tries, cleanup⟩ := exists_of_canClose isEnabled
      refine stepsLeft_appThread (.cleanup tries) running ?_ ?_ ?_
      · rw [cleanup]
        exact Nat.le_refl _
      · simp only [State.next, cleanup]
      · simp only [State.next, cleanup]
  | closes =>
      obtain ⟨tries, cleanup⟩ := exists_of_canClose isEnabled
      refine stepsLeft_appThread _ running ?_ rfl rfl
      rw [cleanup]
      exact Nat.le_add_left 2 (tries + 1)
  | cleanupTimeout =>
      apply stepsLeft_lowered running
      · intro still
        cases still
      · rw [isEnabled]
        exact Nat.add_pos_right _ (Nat.succ_pos 1)
  | notifyExit =>
      refine stepsLeft_appThread _ running ?_ rfl ?_
      · rw [isEnabled]
        exact Nat.le_refl 1
      · exact (throughSelf_threads state).1

/-- The GUI context goes away only after the exit of a created application was
requested, and the UI thread goes on only without it. -/
structure Ordered (framework : Framework) (state : State) : Prop where
  handle : state.shell.quickApp ≠ none → framework.application ≠ none
  created : state.exitRequested → framework.application ≠ none
  requested : state.shell.guiContext = none → state.exitRequested
  waited : state.uiThread.stepsLeft < 3 → state.shell.guiContext = none

theorem ordered_start (framework : Framework) (url : List Char) :
    Ordered framework (system framework url).start := by
  obtain ⟨context, application, featureManager, permissions⟩ := framework
  constructor
  · cases permissions <;> exact id
  · intro requested
    cases requested
  · intro absent
    cases permissions <;> cases absent
  · intro few
    have left : 204 < 3 := few
    omega

private theorem stop_fields (shell : ShellApp) :
    shell.stop.1.quickApp = none ∧
      shell.stop.1.guiContext = shell.guiContext ∧
      (shell.stop.2.any isRequestExit → shell.quickApp ≠ none) := by
  rw [ShellApp.stop]
  cases created : shell.quickApp with
  | none => exact ⟨created, rfl, fun requested => by cases requested⟩
  | some application => exact ⟨rfl, rfl, fun _ => Option.some_ne_none _⟩

private theorem onAppDestroy_quickApp (shell : ShellApp) :
    shell.onAppDestroy.1.quickApp = shell.quickApp := by
  rw [ShellApp.onAppDestroy]
  split <;> rfl

/-- A round that is taken leaves the UI thread in `waitUIDestroy`. -/
private theorem polled_isWaiting {uiThread : UIThread}
    (canPoll : uiThread.canPoll) : uiThread.polled.isWaiting := by
  cases uiThread with
  | waiting loopLimits => cases loopLimits <;> rfl
  | _ => cases canPoll

theorem method_fields (call : ClientCall) (shell : ShellApp) :
    (call.method shell).quickApp = shell.quickApp ∧
      (call.method shell).guiContext = shell.guiContext := by
  cases call with
  | onAppNotifyEvent event => cases event <;> exact ⟨rfl, rfl⟩
  | _ => exact ⟨rfl, rfl⟩

private theorem ordered_shell {framework : Framework} {state after : State}
    (ordered : Ordered framework state)
    (handle : after.shell.quickApp = state.shell.quickApp)
    (requested : after.exitRequested = state.exitRequested)
    (context : after.shell.guiContext = state.shell.guiContext)
    (uiThread : after.uiThread = state.uiThread) :
    Ordered framework after where
  handle := by
    rw [handle]
    exact ordered.handle
  created := by
    rw [requested]
    exact ordered.created
  requested := by
    rw [requested, context]
    exact ordered.requested
  waited := by
    rw [uiThread, context]
    exact ordered.waited

private theorem throughClient_exitRequested (state : State)
    (method : ShellApp → ShellApp) :
    (state.throughClient method).exitRequested = state.exitRequested := by
  simp only [State.throughClient]
  split
  · rfl
  · split <;> rfl

private theorem throughClient_shell (state : State)
    (method : ShellApp → ShellApp) :
    (state.throughClient method).shell = state.shell ∨
      (state.throughClient method).shell = method state.shell := by
  simp only [State.throughClient]
  split
  · exact .inl rfl
  · split
    · exact .inl rfl
    · exact .inr rfl

/-- `OnAppDestroyOnUI` in a round that leaves more to go. -/
private theorem ordered_delivered {framework : Framework} {state : State}
    (ordered : Ordered framework state) (requested : state.exitRequested)
    {uiThread : UIThread} (waiting : 3 ≤ uiThread.stepsLeft) :
    Ordered framework
      (State.throughClient { state with uiThread, appDestroyed := true }
        fun shell => shell.onAppDestroy.1) := by
  have thread := (throughClient_threads
    { state with uiThread, appDestroyed := true }
    fun shell => shell.onAppDestroy.1).1
  have still := throughClient_exitRequested
    { state with uiThread, appDestroyed := true }
    fun shell => shell.onAppDestroy.1
  have quickApp : (State.throughClient
      { state with uiThread, appDestroyed := true }
      fun shell => shell.onAppDestroy.1).shell.quickApp =
        state.shell.quickApp := by
    rcases throughClient_shell { state with uiThread, appDestroyed := true }
      fun shell => shell.onAppDestroy.1 with same | called
    · rw [same]
    · rw [called, onAppDestroy_quickApp]
  constructor
  · rw [quickApp]
    exact ordered.handle
  · rw [still]
    exact ordered.created
  · intro _
    rw [still]
    exact requested
  · rw [thread]
    exact fun few => absurd few (Nat.not_lt.mpr waiting)

theorem ordered_next (framework : Framework) (state : State) (event : Event)
    (ordered : Ordered framework state) (isEnabled : state.Enabled event) :
    Ordered framework (state.next event) := by
  have isEnabled := isEnabled.2
  cases event with
  | stop =>
      obtain ⟨forgotten, context, created⟩ := stop_fields state.shell
      constructor
      · intro kept
        exact absurd forgotten kept
      · intro requested
        rcases Bool.or_eq_true_iff.mp requested with before | now
        · exact ordered.created before
        · exact ordered.handle (created now)
      · intro absent
        have before := ordered.requested (context ▸ absent)
        exact Bool.or_eq_true_iff.mpr (.inl before)
      · intro few
        have left : 203 < 3 := few
        omega
  | poll delivers =>
      obtain ⟨canPoll, _, inTime⟩ := isEnabled
      have waiting := stepsLeft_waiting (polled_isWaiting canPoll)
      simp only [State.next]
      split
      · rename_i delivered
        exact ordered_delivered ordered (inTime delivered).1 waiting
      · exact
          { handle := ordered.handle
            created := ordered.created
            requested := ordered.requested
            waited := fun few => absurd few (Nat.not_lt.mpr waiting) }
  | leaveWait =>
      exact
        { handle := ordered.handle
          created := ordered.created
          requested := ordered.requested
          waited := fun _ => isEnabled.2 }
  | release =>
      exact
        { handle := ordered.handle
          created := ordered.created
          requested := ordered.requested
          waited := fun _ => ordered.waited (by rw [isEnabled]; decide) }
  | resetShellApp =>
      exact
        { handle := ordered.handle
          created := ordered.created
          requested := ordered.requested
          waited := fun _ => ordered.waited (by rw [isEnabled]; decide) }
  | clientCall call =>
      have thread := (throughClient_threads state call.method).1
      have requested := throughClient_exitRequested state call.method
      have fields := method_fields call state.shell
      rcases throughClient_shell state call.method with same | called
      · exact ordered_shell ordered (by rw [State.next, same]) requested
          (by rw [State.next, same]) thread
      · exact ordered_shell ordered (by rw [State.next, called, fields.1])
          requested (by rw [State.next, called, fields.2]) thread
  | notifyExit =>
      have thread := (throughSelf_threads state).1
      simp only [State.next, State.throughSelf] at thread ⊢
      split
      · exact ordered_shell ordered rfl rfl rfl rfl
      · exact ordered_shell ordered rfl rfl rfl rfl
  | closeFails =>
      simp only [State.next]
      split
      · exact ordered_shell ordered rfl rfl rfl rfl
      · exact ordered
  | _ => exact ordered_shell ordered rfl rfl rfl rfl

private theorem uiThread_progress {state : State}
    (running : state.aborted = false) (open_ : state.uiThread ≠ .destroyed) :
    ∃ event, event.isOwn ∧ state.Enabled event := by
  cases thread : state.uiThread with
  | running => exact ⟨.stop, rfl, running, thread⟩
  | waiting loopLimits =>
      by_cases absent : state.shell.guiContext = none
      · exact ⟨.leaveWait, rfl, running, by rw [thread]; rfl, absent⟩
      · cases loopLimits with
        | zero => exact ⟨.timeout, rfl, running, thread, absent⟩
        | succ loopLimits =>
            refine ⟨.poll false, rfl, running, by rw [thread]; rfl, absent, ?_⟩
            intro impossible
            cases impossible
  | waited => exact ⟨.release, rfl, running, thread⟩
  | released => exact ⟨.resetShellApp, rfl, running, thread⟩
  | destroyed => exact absurd thread open_

/-- Once the exit was requested, so can the application thread. -/
private theorem appThread_progress {state : State}
    (running : state.aborted = false) (requested : state.exitRequested)
    (open_ : state.appThread ≠ .finished) :
    ∃ event, event.isOwn ∧ state.Enabled event := by
  cases thread : state.appThread with
  | inLoop => exact ⟨.loopReturns, rfl, running, thread, requested⟩
  | loopReturned => exact ⟨.messageLoopDestroy, rfl, running, thread⟩
  | cleanup tries =>
      cases tries with
      | zero => exact ⟨.cleanupTimeout, rfl, running, thread⟩
      | succ tries => exact ⟨.closes, rfl, running, by rw [thread]; rfl⟩
  | notifying => exact ⟨.notifyExit, rfl, running, thread⟩
  | finished => exact absurd thread open_

theorem progress_of_ordered {framework : Framework} {state : State}
    (ordered : Ordered framework state) (open_ : ¬Ended framework state) :
    ∃ event, event.isOwn ∧ state.Enabled event := by
  have running : state.aborted = false := by
    by_contra ended
    exact open_ (.inl (by simpa using ended))
  by_cases uiThread : state.uiThread = .destroyed
  · have absent := ordered.waited (by rw [uiThread]; decide)
    have requested := ordered.requested absent
    apply appThread_progress running requested
    intro appThread
    exact open_ (.inr
      { uiThread
        appThread
        context := absent
        created := ordered.created requested })
  · exact uiThread_progress running uiThread

/-- The steps of both threads run out, and until then one of them can go
on. -/
def termination (framework : Framework) (url : List Char) :
    Termination (system framework url) Event.isOwn (Ended framework) where
  measure := State.stepsLeft
  invariant := Ordered framework
  start_invariant := ordered_start framework url
  next_invariant := ordered_next framework
  next_measure state event _ isEnabled := stepsLeft_next state event isEnabled
  progress _ ordered open_ := progress_of_ordered ordered open_

/-- In every run the two threads take at most 408 steps of their own, however
many calls the framework makes in between; and every run can be continued by
their steps until both are done with a created application or a check has
failed. -/
theorem teardown_ends (framework : Framework) (url : List Char)
    {events : List Event}
    (run : (system framework url).Run (system framework url).start events) :
    events.countP Event.isOwn ≤ 408 ∧
      ∃ rest, (∀ event ∈ rest, event.isOwn) ∧
        (system framework url).Run (system framework url).start
          (events ++ rest) ∧
        Ended framework ((system framework url).after
          (system framework url).start (events ++ rest)) := by
  constructor
  · exact (termination framework url).countP_le run
  · exact (termination framework url).completes run

/-- A loop that could not be closed at once. -/
def lateCleanup : List Event :=
  [.stop, .loopReturns, .poll false, .messageLoopDestroy, .closeFails,
    .clientCall (.onAppNotifyEvent .destroy)]

theorem teardown_ends_late :
    lateCleanup.countP Event.isOwn ≤ 408 ∧
      ∃ rest, (∀ event ∈ rest, event.isOwn) ∧
        plainSystem.Run plainSystem.start (lateCleanup ++ rest) ∧
        Ended
          { guiContext := 1
            application := some 2
            featureManager := fun _ => 3
            quickappPermissionManager := false }
          (plainSystem.after plainSystem.start (lateCleanup ++ rest)) :=
  teardown_ends _ _ (show plainSystem.Run plainSystem.start lateCleanup by
    decide)

end QuickApp.Shell.Teardown
