import QuickApp.Shell.App
import QuickApp.Transition

/-!
# Teardown in asynchronous mode

The UI thread stops the application, waits until the GUI context is gone,
releases the client context and drops its own reference.  The application
thread meanwhile ends its loop, cleans it up and reports `QAPP_EVENT_EXIT`
through a raw pointer, and the framework may deliver events on it until the
cleanup is over.  The GUI context is all the two threads agree on, so nothing
keeps the UI thread from going first.
-/

namespace QuickApp.Shell.Teardown

/-- Where the UI thread is in `QuickActivity::onDestroy`; `waiting` carries
`loop_limits`. -/
inductive UIThread where
  | running
  | waiting (loopLimits : Nat)
  | waited
  | released
  | destroyed
  deriving DecidableEq

/-- Where the application thread is in `runApplication`; `cleanup` carries the
tries left in `ensureUVLoopCleanup`. -/
inductive AppThread where
  | inLoop
  | loopReturned
  | cleanup (tries : Nat)
  | notifying
  | finished
  deriving DecidableEq

namespace UIThread

/-- In `waitUIDestroy`. -/
def isWaiting : UIThread → Bool
  | .waiting _ => true
  | _ => false

/-- In `waitUIDestroy` with rounds left. -/
def canPoll : UIThread → Bool
  | .waiting (_ + 1) => true
  | _ => false

/-- One round of `waitUIDestroy`. -/
def polled : UIThread → UIThread
  | .waiting (loopLimits + 1) => .waiting loopLimits
  | other => other

/-- Before `release`. -/
def holdsContext : UIThread → Bool
  | .released => false
  | .destroyed => false
  | _ => true

/-- Before the reset of `shell_app_`. -/
def holdsShellApp : UIThread → Bool
  | .destroyed => false
  | _ => true

@[simp] theorem polled_holdsContext (uiThread : UIThread) :
    uiThread.polled.holdsContext = uiThread.holdsContext := by
  cases uiThread with
  | waiting loopLimits => cases loopLimits <;> rfl
  | _ => rfl

@[simp] theorem polled_holdsShellApp (uiThread : UIThread) :
    uiThread.polled.holdsShellApp = uiThread.holdsShellApp := by
  cases uiThread with
  | waiting loopLimits => cases loopLimits <;> rfl
  | _ => rfl

end UIThread

namespace AppThread

/-- The framework can deliver events: the loop runs, is being destroyed or is
run once more by the cleanup. -/
def inFramework : AppThread → Bool
  | .inLoop => true
  | .loopReturned => true
  | .cleanup _ => true
  | _ => false

def canClose : AppThread → Bool
  | .cleanup (_ + 1) => true
  | _ => false

end AppThread

/-- The functions of `QApplicationClient` called on the application thread. -/
inductive ClientCall where
  | onAppNotifyEvent (event : QAppEvent)
  | onNavigateToApp
  | onFeatureManagerPrepare
  | onFeatureManagerDestroy

/-- What the call does to the shell. -/
def ClientCall.method : ClientCall → ShellApp → ShellApp
  | .onAppNotifyEvent event => fun shell => (shell.onNotifyEvent event).1
  | .onNavigateToApp => id
  | .onFeatureManagerPrepare => id
  | .onFeatureManagerDestroy => id

/-- Use of a dead `ShellApp` or of the deleted client context. -/
inductive Fault where
  | selfUsed
  | contextUsed
  deriving DecidableEq

/-- Both threads, the two references to the shell, what the framework has done
about the exit, and whether a failed check has ended the process. -/
structure State where
  shell : ShellApp
  uiThread : UIThread := .running
  appThread : AppThread := .inLoop
  shellApp : Bool := true
  clientContext : Bool := true
  exitRequested : Bool := false
  appDestroyed : Bool := false
  aborted : Bool := false
  faults : List Fault := []

/-- Steps of the UI thread, then steps of the application thread.  `poll` is a
round of `waitUIDestroy`, in which `OnAppDestroyOnUI` may be delivered. -/
inductive Event where
  | stop
  | poll (delivers : Bool)
  | leaveWait
  | timeout
  | release
  | resetShellApp
  | clientCall (call : ClientCall)
  | loopReturns
  | messageLoopDestroy
  | closeFails
  | closes
  | cleanupTimeout
  | notifyExit

def isRequestExit : Call → Bool
  | .applicationRequestExit _ => true
  | _ => false

namespace State

variable (state : State)

/-- Some `shared_ptr<ShellApp>` is left. -/
def alive : Bool :=
  state.shellApp || state.clientContext

/-- `client` points into the shell, and its context is read next. -/
def throughClient (method : ShellApp → ShellApp) : State :=
  if !state.alive then
    { state with faults := .selfUsed :: state.faults }
  else if !state.clientContext then
    { state with faults := .contextUsed :: state.faults }
  else
    { state with shell := method state.shell }

/-- `self->onNotifyEvent(QAPP_EVENT_EXIT, nullptr)`. -/
def throughSelf : State :=
  if state.alive then
    { state with shell := (state.shell.onNotifyEvent .exit).1 }
  else
    { state with faults := .selfUsed :: state.faults }

def next : Event → State
  | .stop =>
      { state with
        shell := state.shell.stop.1
        exitRequested := state.exitRequested ||
          state.shell.stop.2.any isRequestExit
        uiThread := .waiting 200 }
  | .poll delivers =>
      let polled := { state with uiThread := state.uiThread.polled }
      if delivers then
        throughClient { polled with appDestroyed := true }
          fun shell => shell.onAppDestroy.1
      else
        polled
  | .leaveWait => { state with uiThread := .waited }
  | .timeout => { state with aborted := true }
  | .release =>
      { state with clientContext := false, uiThread := .released }
  | .resetShellApp =>
      { state with shellApp := false, uiThread := .destroyed }
  | .clientCall call => state.throughClient call.method
  | .loopReturns => { state with appThread := .loopReturned }
  | .messageLoopDestroy => { state with appThread := .cleanup 200 }
  | .closeFails =>
      match state.appThread with
      | .cleanup (tries + 1) => { state with appThread := .cleanup tries }
      | _ => state
  | .closes => { state with appThread := .notifying }
  | .cleanupTimeout => { state with aborted := true }
  | .notifyExit => { state.throughSelf with appThread := .finished }

end State

/-- The program order of the two threads.  The framework delivers
`OnAppDestroyOnUI` and lets the loop return only after the exit was requested,
in any order. -/
def State.Enabled (state : State) (event : Event) : Prop :=
  state.aborted = false ∧
    match event with
    | .stop => state.uiThread = .running
    | .poll delivers => state.uiThread.canPoll ∧
        state.shell.guiContext ≠ none ∧
          (delivers → state.exitRequested ∧ ¬state.appDestroyed)
    | .leaveWait => state.uiThread.isWaiting ∧ state.shell.guiContext = none
    | .timeout => state.uiThread = .waiting 0 ∧ state.shell.guiContext ≠ none
    | .release => state.uiThread = .waited
    | .resetShellApp => state.uiThread = .released
    | .clientCall _ => state.appThread.inFramework
    | .loopReturns => state.appThread = .inLoop ∧ state.exitRequested
    | .messageLoopDestroy => state.appThread = .loopReturned
    | .closeFails => state.appThread.canClose
    | .closes => state.appThread.canClose
    | .cleanupTimeout => state.appThread = .cleanup 0
    | .notifyExit => state.appThread = .notifying

instance State.Enabled.decidable (state : State) :
    ∀ event, Decidable (state.Enabled event)
  | .stop => inferInstanceAs (Decidable (_ ∧ _ = _))
  | .poll _ => inferInstanceAs (Decidable (_ ∧ _ ∧ _ ≠ _ ∧ (_ → _)))
  | .leaveWait => inferInstanceAs (Decidable (_ ∧ _ ∧ _ = _))
  | .timeout => inferInstanceAs (Decidable (_ ∧ _ = _ ∧ _ ≠ _))
  | .release => inferInstanceAs (Decidable (_ ∧ _ = _))
  | .resetShellApp => inferInstanceAs (Decidable (_ ∧ _ = _))
  | .clientCall _ => inferInstanceAs (Decidable (_ ∧ _ = true))
  | .loopReturns => inferInstanceAs (Decidable (_ ∧ _ = _ ∧ _ = true))
  | .messageLoopDestroy => inferInstanceAs (Decidable (_ ∧ _ = _))
  | .closeFails => inferInstanceAs (Decidable (_ ∧ _ = true))
  | .closes => inferInstanceAs (Decidable (_ ∧ _ = true))
  | .cleanupTimeout => inferInstanceAs (Decidable (_ ∧ _ = _))
  | .notifyExit => inferInstanceAs (Decidable (_ ∧ _ = _))

/-- The runs of the two threads after an asynchronous `create`. -/
def system (framework : Framework) (url : List Char) : System State Event where
  start := { shell := (ShellApp.create (.new url true) framework).1 }
  enabled := State.Enabled
  next := State.next

instance system.decidableEnabled (framework : Framework) (url : List Char)
    (state : State) (event : Event) :
    Decidable ((system framework url).enabled state event) :=
  State.Enabled.decidable state event

/-- `release` comes when the framework is done with the application thread,
and the last reference is dropped when that thread has reported its exit. -/
def AppThreadFirst (state : State) : Event → Prop
  | .release => state.appThread.inFramework = false
  | .resetShellApp => state.appThread = .finished
  | _ => True

/-- The two references are dropped by the UI thread, in this order. -/
structure References (state : State) : Prop where
  context : state.clientContext = state.uiThread.holdsContext
  self : state.shellApp = state.uiThread.holdsShellApp

section Through

variable (state : State) (method : ShellApp → ShellApp)

@[simp] theorem throughClient_threads :
    (state.throughClient method).uiThread = state.uiThread ∧
      (state.throughClient method).appThread = state.appThread ∧
      (state.throughClient method).shellApp = state.shellApp ∧
      (state.throughClient method).clientContext = state.clientContext ∧
      (state.throughClient method).aborted = state.aborted := by
  simp only [State.throughClient]
  split
  · simp
  · split <;> simp

@[simp] theorem throughSelf_threads :
    state.throughSelf.uiThread = state.uiThread ∧
      state.throughSelf.shellApp = state.shellApp ∧
      state.throughSelf.clientContext = state.clientContext := by
  simp only [State.throughSelf]
  split <;> simp

theorem throughClient_faults (present : state.clientContext) :
    (state.throughClient method).faults = state.faults := by
  simp [State.throughClient, State.alive, present]

theorem throughSelf_faults (alive : state.alive) :
    state.throughSelf.faults = state.faults := by
  simp [State.throughSelf, alive]

theorem throughClient_fault (absent : state.clientContext = false) :
    (state.throughClient method).faults ≠ [] := by
  simp only [State.throughClient, absent]
  split <;> simp

theorem throughSelf_fault (dead : state.alive = false) :
    state.throughSelf.faults ≠ [] := by
  simp [State.throughSelf, dead]

end Through

theorem exists_of_isWaiting {uiThread : UIThread}
    (isWaiting : uiThread.isWaiting) :
    ∃ loopLimits, uiThread = .waiting loopLimits := by
  cases uiThread with
  | waiting loopLimits => exact ⟨loopLimits, rfl⟩
  | _ => cases isWaiting

theorem holdsContext_of_canPoll {uiThread : UIThread}
    (canPoll : uiThread.canPoll) : uiThread.holdsContext := by
  cases uiThread with
  | waiting loopLimits => rfl
  | _ => cases canPoll

theorem references_next (state : State) (event : Event)
    (references : References state) (isEnabled : state.Enabled event) :
    References (state.next event) := by
  obtain ⟨context, self⟩ := references
  have isEnabled := isEnabled.2
  cases event with
  | stop =>
      rw [isEnabled] at context self
      exact ⟨context, self⟩
  | poll delivers =>
      simp only [State.next]
      split <;> exact ⟨by simpa using context, by simpa using self⟩
  | leaveWait =>
      obtain ⟨loopLimits, waiting⟩ := exists_of_isWaiting isEnabled.1
      rw [waiting] at context self
      exact ⟨context, self⟩
  | release =>
      rw [isEnabled] at self
      exact ⟨rfl, self⟩
  | resetShellApp =>
      rw [isEnabled] at context
      exact ⟨context, rfl⟩
  | clientCall call =>
      simp only [State.next]
      exact ⟨by simpa using context, by simpa using self⟩
  | closeFails =>
      simp only [State.next]
      split <;> exact ⟨context, self⟩
  | notifyExit =>
      simp only [State.next]
      exact ⟨by simpa using context, by simpa using self⟩
  | _ => exact ⟨context, self⟩

/-- What the application thread still needs is still there. -/
structure Safe (state : State) : Prop where
  references : References state
  context : state.clientContext = false →
    state.appThread.inFramework = false
  self : state.shellApp = false → state.appThread = .finished
  faults : state.faults = []

theorem safe_start (framework : Framework) (url : List Char) :
    Safe (system framework url).start where
  references := ⟨rfl, rfl⟩
  context := by simp [system]
  self := by simp [system]
  faults := rfl

private theorem safe_appThread {state : State} (safe : Safe state)
    (inFramework : state.appThread.inFramework) (appThread : AppThread) :
    Safe { state with appThread } := by
  have context : state.clientContext = true := by
    by_contra deleted
    rw [safe.context (by simpa using deleted)] at inFramework
    cases inFramework
  have self : state.shellApp = true := by
    by_contra dropped
    rw [safe.self (by simpa using dropped)] at inFramework
    cases inFramework
  exact
    { references := ⟨safe.references.context, safe.references.self⟩
      context := fun deleted => by simp [context] at deleted
      self := fun dropped => by simp [self] at dropped
      faults := safe.faults }

private theorem inFramework_of_canClose {appThread : AppThread}
    (canClose : appThread.canClose) : appThread.inFramework := by
  cases appThread with
  | cleanup tries => rfl
  | _ => cases canClose

theorem safe_next (state : State) (event : Event) (safe : Safe state)
    (isEnabled : state.Enabled event) (first : AppThreadFirst state event) :
    Safe (state.next event) := by
  have references := references_next state event safe.references isEnabled
  have isEnabled := isEnabled.2
  cases event with
  | poll delivers =>
      have present : state.clientContext := by
        rw [safe.references.context]
        exact holdsContext_of_canPoll isEnabled.1
      refine { references, context := ?_, self := ?_, faults := ?_ } <;>
        simp only [State.next]
      · split <;> simpa using safe.context
      · split <;> simpa using safe.self
      · split
        · refine (throughClient_faults _ _ ?_).trans safe.faults
          exact present
        · exact safe.faults
  | release =>
      exact
        { references
          context := fun _ => first
          self := safe.self
          faults := safe.faults }
  | resetShellApp =>
      exact
        { references
          context := safe.context
          self := fun _ => first
          faults := safe.faults }
  | clientCall call =>
      have present : state.clientContext := by
        by_contra deleted
        have outside := safe.context (by simpa using deleted)
        cases outside.symm.trans isEnabled
      refine { references, context := ?_, self := ?_, faults := ?_ } <;>
        simp only [State.next]
      · simpa using safe.context
      · simpa using safe.self
      · rw [throughClient_faults _ _ present]
        exact safe.faults
  | loopReturns =>
      exact safe_appThread safe (by rw [isEnabled.1]; rfl) _
  | messageLoopDestroy =>
      exact safe_appThread safe (by rw [isEnabled]; rfl) _
  | closeFails =>
      have inFramework := inFramework_of_canClose isEnabled
      simp only [State.next]
      split
      · exact safe_appThread safe inFramework _
      · exact safe
  | closes =>
      exact safe_appThread safe (inFramework_of_canClose isEnabled) _
  | notifyExit =>
      have alive : state.alive := by
        have held : state.shellApp = true := by
          by_contra dropped
          rw [safe.self (by simpa using dropped)] at isEnabled
          cases isEnabled
        simp [State.alive, held]
      exact
        { references
          context := fun _ => rfl
          self := fun _ => rfl
          faults := (throughSelf_faults state alive).trans safe.faults }
  | _ =>
      exact
        { references
          context := safe.context
          self := safe.self
          faults := safe.faults }

/-- One step of the application thread after the UI thread has gone ahead. -/
private theorem fault_after (framework : Framework) (url : List Char)
    {state : State} (references : References state) {event : Event}
    (isEnabled : state.Enabled event) (ahead : ¬AppThreadFirst state event) :
    ∃ used, (system framework url).Run state [event, used] ∧
      ((system framework url).after state [event, used]).faults ≠ [] := by
  cases event with
  | release =>
      have inFramework : state.appThread.inFramework = true := by
        simpa [AppThreadFirst] using ahead
      refine ⟨.clientCall (.onAppNotifyEvent .hide),
        ⟨isEnabled, ⟨isEnabled.1, inFramework⟩, trivial⟩, ?_⟩
      exact throughClient_fault _ _ rfl
  | resetShellApp =>
      have released : state.uiThread = .released := isEnabled.2
      have deleted : state.clientContext = false := by
        rw [references.context, released]
        rfl
      by_cases inFramework : state.appThread.inFramework
      · refine ⟨.clientCall (.onAppNotifyEvent .hide),
          ⟨isEnabled, ⟨isEnabled.1, inFramework⟩, trivial⟩, ?_⟩
        exact throughClient_fault _ _ deleted
      · have notifying : state.appThread = .notifying := by
          cases thread : state.appThread with
          | notifying => rfl
          | finished => exact (ahead thread).elim
          | _ => simp [thread, AppThread.inFramework] at inFramework
        refine ⟨.notifyExit,
          ⟨isEnabled, ⟨isEnabled.1, notifying⟩, trivial⟩, ?_⟩
        apply throughSelf_fault
        simp [system, State.next, State.alive, deleted]
  | _ => exact (ahead trivial).elim

/-- The application thread uses neither a dead shell nor a deleted context in
any run in which `release` waits for its last framework event and the reset
of `shell_app_` for its exit event; a release or reset that does not wait can
be followed by such a use at once. -/
theorem teardown_safe (framework : Framework) (url : List Char) :
    (∀ state, (system framework url).ReachableWhen AppThreadFirst state →
        state.faults = []) ∧
      ∀ state event, (system framework url).Reachable state →
        state.Enabled event → ¬AppThreadFirst state event →
        ∃ used, (system framework url).Run state [event, used] ∧
          ((system framework url).after state [event, used]).faults ≠ [] := by
  constructor
  · intro state reachable
    have safe : Safe state :=
      reachable.invariant (safe_start framework url) safe_next
    exact safe.faults
  · intro state event reachable isEnabled ahead
    have references : References state := reachable.invariant ⟨rfl, rfl⟩
      fun state event references => references_next state event references
    exact fault_after framework url references isEnabled ahead

/-- An application without permission manager. -/
def plainSystem : System State Event :=
  system
    { guiContext := 1
      application := some 2
      featureManager := fun _ => 3
      quickappPermissionManager := false }
    "hap://app/com.a".toList

instance plainSystem.decidableEnabled (state : State) (event : Event) :
    Decidable (plainSystem.enabled state event) :=
  State.Enabled.decidable state event

/-- The application thread finishes first. -/
theorem teardown_safe_in_order :
    (plainSystem.after plainSystem.start
      [.stop, .clientCall (.onAppNotifyEvent .destroy), .loopReturns,
        .messageLoopDestroy, .closes, .notifyExit, .poll true, .leaveWait,
        .release, .resetShellApp]).faults = [] := by
  apply (teardown_safe _ _).1
  exact ⟨[.stop, .clientCall (.onAppNotifyEvent .destroy), .loopReturns,
      .messageLoopDestroy, .closes, .notifyExit, .poll true, .leaveWait,
      .release, .resetShellApp],
    ⟨⟨by decide, trivial⟩, ⟨by decide, trivial⟩, ⟨by decide, trivial⟩,
      ⟨by decide, trivial⟩, ⟨by decide, trivial⟩, ⟨by decide, trivial⟩,
      ⟨by decide, trivial⟩, ⟨by decide, trivial⟩, ⟨by decide, rfl⟩,
      ⟨by decide, rfl⟩, trivial⟩, rfl⟩

/-- The UI thread finishes first: an event of the framework finds the context
deleted, or the exit event finds the shell dead. -/
theorem app_thread_late :
    (plainSystem.Run plainSystem.start
        [.stop, .poll true, .leaveWait, .release,
          .clientCall (.onAppNotifyEvent .hide)] ∧
      (plainSystem.after plainSystem.start
        [.stop, .poll true, .leaveWait, .release,
          .clientCall (.onAppNotifyEvent .hide)]).faults = [.contextUsed]) ∧
    (plainSystem.Run plainSystem.start
        [.stop, .loopReturns, .poll true, .leaveWait, .release,
          .resetShellApp, .messageLoopDestroy, .closes, .notifyExit] ∧
      (plainSystem.after plainSystem.start
        [.stop, .loopReturns, .poll true, .leaveWait, .release,
          .resetShellApp, .messageLoopDestroy, .closes,
          .notifyExit]).faults = [.selfUsed]) := by
  decide

end QuickApp.Shell.Teardown
