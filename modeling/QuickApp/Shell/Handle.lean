import QuickApp.Shell.App
import QuickApp.Transition

/-!
# The application handle

`QApplicationCreate` returns the handle that later calls into the framework
pass.  `stop` requests the exit with it and then clears it.  Most methods look
whether it is null, but `start` and the path of the splash icon do not, and
events come from another thread than `stop` in asynchronous mode.  Both halves
of `stop` and both calls of `getIconPath` are steps of their own here.
-/

namespace QuickApp.Shell

/-- The functions of the framework that get the application handle. -/
inductive ApplicationFunction where
  | start
  | show
  | hide
  | route (url : List Char)
  | backPress
  | requestExit
  | getManifest
  | getPackagePath
  deriving DecidableEq

structure ApplicationCall where
  function : ApplicationFunction
  application : Option QApplicationHandle
  deriving DecidableEq

/-- The handle that a call out of the shell passes, if it passes one. -/
def Call.withApplication : Call → Option ApplicationCall
  | .applicationStart application => some ⟨.start, application⟩
  | .applicationRequestExit application => some ⟨.requestExit, application⟩
  | .applicationGetManifest application => some ⟨.getManifest, application⟩
  | .applicationGetPackagePath application =>
      some ⟨.getPackagePath, application⟩
  | _ => none

def withApplication (calls : List Call) : List ApplicationCall :=
  calls.filterMap Call.withApplication

namespace ShellApp

variable (app : ShellApp)

/-- A call that is made only with a handle that is not null. -/
def ifCreated (function : ApplicationFunction) : List ApplicationCall :=
  match app.quickApp with
  | none => []
  | some application => [⟨function, some application⟩]

def hide : List ApplicationCall :=
  app.ifCreated .hide

def route (url : List Char) : List ApplicationCall :=
  app.ifCreated (.route url)

def backpress : List ApplicationCall :=
  app.ifCreated .backPress

/-- `stop` up to `QApplicationRequestExit`. -/
def stopRequest : ShellApp × List ApplicationCall :=
  match app.quickApp with
  | none => (app, [])
  | some application =>
      ({ app with permissionManager := none },
        [⟨.requestExit, some application⟩])

/-- The last statement of `stop`. -/
def stopClear : ShellApp :=
  { app with quickApp := none }

/-- `getIconPath` up to `QApplicationGetManifest`. -/
def iconManifest : ApplicationCall :=
  ⟨.getManifest, app.quickApp⟩

/-- The rest of `getIconPath`. -/
def iconPackagePath : ApplicationCall :=
  ⟨.getPackagePath, app.quickApp⟩

theorem withApplication_start :
    withApplication app.start = [⟨.start, app.quickApp⟩] := rfl

private theorem withApplication_permission (calls : List Permission.Call) :
    withApplication (calls.map .permission) = [] := by
  rw [withApplication, List.filterMap_map, List.filterMap_eq_nil_iff]
  intro call _
  rfl

theorem stop_halves (created : app.quickApp ≠ none) :
    app.stopRequest.1.stopClear = app.stop.1 ∧
      app.stopRequest.2 = withApplication app.stop.2 := by
  obtain ⟨application, isApplication⟩ := Option.ne_none_iff_exists'.mp created
  rw [stopRequest, stop, isApplication]
  refine ⟨rfl, ?_⟩
  cases app.permissionManager with
  | none => rfl
  | some manager =>
      have silent := withApplication_permission manager.uninit.2
      rw [withApplication] at silent
      simp only [withApplication, List.filterMap_append]
      rw [List.filterMap_cons_none rfl, silent]
      rfl

theorem stop_not_created (missing : app.quickApp = none) :
    app.stopRequest = (app, []) ∧ app.stop = (app, []) := by
  rw [stopRequest, stop, missing]
  exact ⟨rfl, rfl⟩

/-- The two halves are all that `QAPP_EVENT_PREPARE` does with the handle. -/
theorem prepare_halves :
    withApplication (app.onNotifyEvent .prepare).2 =
      [app.iconManifest, app.iconPackagePath] := by
  rw [onNotifyEvent, withApplication, List.filterMap_append]
  have observed : (app.observers.map fun observer =>
      Call.onNotifyEvent observer .prepare).filterMap
        Call.withApplication = [] := by
    rw [List.filterMap_map, List.filterMap_eq_nil_iff]
    intro observer _
    rfl
  rw [observed]
  rfl

end ShellApp

def ShellApp.show (app : ShellApp) : List ApplicationCall :=
  app.ifCreated .show

namespace Handle

/-- The UI thread is inside `stop` between the request and the assignment. -/
inductive UIThread where
  | idle
  | stopping
  deriving DecidableEq

/-- The thread of the events is inside `getIconPath` between its two calls. -/
inductive EventThread where
  | idle
  | inIconPath
  deriving DecidableEq

/-- The shell, the two threads, and the calls with a handle so far. -/
structure State where
  shell : ShellApp
  uiThread : UIThread := .idle
  eventThread : EventThread := .idle
  calls : List ApplicationCall

/-- Steps of the UI thread, then steps of the thread of the events. -/
inductive Event where
  | start
  | show
  | hide
  | route (url : List Char)
  | backpress
  | stop
  | clear
  | notifyEvent (event : QAppEvent)
  | packagePath

namespace Event

def isClear : Event → Bool
  | .clear => true
  | _ => false

def onEventThread : Event → Bool
  | .notifyEvent _ => true
  | .packagePath => true
  | _ => false

def isPackagePath : Event → Bool
  | .packagePath => true
  | _ => false

end Event

namespace State

variable (state : State)

def next : Event → State
  | .start =>
      { state with calls := state.calls ++ withApplication state.shell.start }
  | .show => { state with calls := state.calls ++ state.shell.show }
  | .hide => { state with calls := state.calls ++ state.shell.hide }
  | .route url => { state with calls := state.calls ++ state.shell.route url }
  | .backpress => { state with calls := state.calls ++ state.shell.backpress }
  | .stop =>
      { state with
        shell := state.shell.stopRequest.1
        uiThread := if state.shell.quickApp.isSome then .stopping else .idle
        calls := state.calls ++ state.shell.stopRequest.2 }
  | .clear =>
      { state with shell := state.shell.stopClear, uiThread := .idle }
  | .notifyEvent .prepare =>
      { state with
        eventThread := .inIconPath
        calls := state.calls ++ [state.shell.iconManifest] }
  | .notifyEvent event =>
      { state with shell := (state.shell.onNotifyEvent event).1 }
  | .packagePath =>
      { state with
        eventThread := .idle
        calls := state.calls ++ [state.shell.iconPackagePath] }

/-- The program of the UI thread. -/
def UIEnabled (event : Event) : Prop :=
  (state.uiThread = .stopping ↔ event.isClear) ∧
    (state.shell.asyncMode = false → state.eventThread = .idle)

/-- The program of the thread of the events. -/
def EventEnabled (event : Event) : Prop :=
  (state.eventThread = .inIconPath ↔ event.isPackagePath) ∧
    (state.shell.asyncMode = false → state.uiThread = .idle)

/-- Each thread follows its program; without asynchronous mode both are the
same thread. -/
def Enabled (event : Event) : Prop :=
  if event.onEventThread then state.EventEnabled event
  else state.UIEnabled event

instance UIEnabled.decidable (event : Event) :
    Decidable (state.UIEnabled event) :=
  inferInstanceAs (Decidable ((_ ↔ _) ∧ (_ → _)))

instance EventEnabled.decidable (event : Event) :
    Decidable (state.EventEnabled event) :=
  inferInstanceAs (Decidable ((_ ↔ _) ∧ (_ → _)))

instance Enabled.decidable (event : Event) :
    Decidable (state.Enabled event) :=
  inferInstanceAs (Decidable
    (if event.onEventThread = true then state.EventEnabled event
      else state.UIEnabled event))

end State

/-- The runs after `create`. -/
def system (framework : Framework) (url : List Char) (asyncMode : Bool) :
    System State Event where
  start :=
    { shell := (ShellApp.create (.new url asyncMode) framework).1
      calls := withApplication
        (ShellApp.create (.new url asyncMode) framework).2 }
  enabled := State.Enabled
  next := State.next

instance system.decidableEnabled (framework : Framework) (url : List Char)
    (asyncMode : Bool) (state : State) (event : Event) :
    Decidable ((system framework url asyncMode).enabled state event) :=
  State.Enabled.decidable state event

def isRequestExit (call : ApplicationCall) : Bool :=
  call.function == .requestExit

/-- Every call passes the handle, the exit is requested at most once, and no
call comes after it. -/
structure Disciplined (handle : QApplicationHandle)
    (calls : List ApplicationCall) : Prop where
  passed : ∀ call ∈ calls, call.application = some handle
  once : calls.countP isRequestExit ≤ 1
  last : ∀ front exit back, calls = front ++ exit :: back →
    exit.function = .requestExit → back = []

/-- `stop` has requested the exit. -/
def State.exitRequested (state : State) : Bool :=
  state.uiThread == .stopping || state.shell.quickApp.isNone

/-- A call that does not look at the handle comes before the exit. -/
def BeforeExit (state : State) : Event → Prop
  | .start => state.exitRequested = false
  | .notifyEvent .prepare => state.exitRequested = false
  | .packagePath => state.exitRequested = false
  | _ => True

/-- Once the exit is requested no call is allowed. -/
theorem disciplined_concat (handle : QApplicationHandle)
    (calls : List ApplicationCall) (call : ApplicationCall) :
    Disciplined handle (calls ++ [call]) ↔
      Disciplined handle calls ∧ call.application = some handle ∧
        calls.any isRequestExit = false := by
  constructor
  · intro disciplined
    have unrequested : calls.any isRequestExit = false := by
      rw [List.any_eq_false]
      intro exit member isExit
      obtain ⟨front, back, split⟩ := List.append_of_mem member
      have after := disciplined.last front exit (back ++ [call])
        (by rw [split, List.append_assoc, List.cons_append])
        (by simpa [isRequestExit] using isExit)
      simp at after
    have passed := List.forall_mem_append.mp disciplined.passed
    refine ⟨⟨passed.1, ?_, ?_⟩, passed.2 call List.mem_cons_self,
      unrequested⟩
    · have once := disciplined.once
      rw [List.countP_append] at once
      exact Nat.le_trans (Nat.le_add_right _ _) once
    · intro front exit back split isExit
      have member : exit ∈ calls := by simp [split]
      have noExit := List.any_eq_false.mp unrequested exit member
      simp [isRequestExit, isExit] at noExit
  · intro ⟨disciplined, passes, unrequested⟩
    have noExit := List.any_eq_false.mp unrequested
    refine ⟨?_, ?_, ?_⟩
    · exact List.forall_mem_append.mpr
        ⟨disciplined.passed, List.forall_mem_singleton.mpr passes⟩
    · rw [List.countP_append, List.countP_eq_zero.mpr noExit, Nat.zero_add]
      exact List.countP_le_length
    · intro front exit back split isExit
      obtain rfl | ⟨middle, latest, rfl⟩ := List.eq_nil_or_concat back
      · rfl
      · have member : exit ∈ calls := by
          have longer : calls ++ [call] =
              (front ++ exit :: middle) ++ [latest] := by simpa using split
          rw [(List.append_inj' longer rfl).1]
          simp
        have isNot := noExit exit member
        simp [isRequestExit, isExit] at isNot

/-- What every step keeps: the shell holds the handle or null, the request
left its mark on the calls, and `stop` works on the handle it has seen. -/
structure Tracked (handle : QApplicationHandle) (state : State) : Prop where
  application : state.shell.quickApp ≠ none →
    state.shell.quickApp = some handle
  stopping : state.uiThread = .stopping → state.shell.quickApp ≠ none
  requested : state.calls.any isRequestExit = state.exitRequested

theorem exitRequested_eq_false_iff (state : State) :
    state.exitRequested = false ↔
      state.uiThread = .idle ∧ state.shell.quickApp ≠ none := by
  rw [State.exitRequested]
  cases state.uiThread with
  | idle => simp [Option.isSome_iff_ne_none]
  | stopping => simp

theorem disciplined_unguarded {handle : QApplicationHandle} {state : State}
    (tracked : Tracked handle state) (function : ApplicationFunction) :
    Disciplined handle
        (state.calls ++ [⟨function, state.shell.quickApp⟩]) ↔
      Disciplined handle state.calls ∧ state.exitRequested = false := by
  rw [disciplined_concat, tracked.requested]
  apply and_congr_right
  intro _
  constructor
  · intro both
    exact both.2
  · intro before
    have created := (exitRequested_eq_false_iff state).mp before
    exact ⟨tracked.application created.2, before⟩

theorem disciplined_ifCreated {handle : QApplicationHandle} {state : State}
    (tracked : Tracked handle state) (idle : state.uiThread = .idle)
    (function : ApplicationFunction) :
    Disciplined handle (state.calls ++ state.shell.ifCreated function) ↔
      Disciplined handle state.calls := by
  cases created : state.shell.quickApp with
  | none => rw [ShellApp.ifCreated, created, List.append_nil]
  | some application =>
      have before : state.exitRequested = false := by
        rw [exitRequested_eq_false_iff, created]
        exact ⟨idle, Option.some_ne_none application⟩
      have unguarded := disciplined_unguarded tracked function
      rw [ShellApp.ifCreated, created]
      rw [created] at unguarded
      rw [unguarded]
      exact and_iff_left before

private theorem onNotifyEvent_quickApp (app : ShellApp) (event : QAppEvent) :
    (app.onNotifyEvent event).1.quickApp = app.quickApp := by
  cases event <;> rfl

theorem idle_of_not_clear {state : State} {event : Event}
    (isEnabled : state.UIEnabled event) (notClear : event.isClear = false) :
    state.uiThread = .idle := by
  have stopping := isEnabled.1
  cases uiThread : state.uiThread with
  | idle => rfl
  | stopping => simp [uiThread, notClear] at stopping

theorem tracked_append {handle : QApplicationHandle} {state : State}
    (tracked : Tracked handle state) (calls : List ApplicationCall)
    (noExit : calls.any isRequestExit = false) :
    Tracked handle { state with calls := state.calls ++ calls } := by
  refine ⟨tracked.application, tracked.stopping, ?_⟩
  rw [List.any_append, noExit, Bool.or_false]
  exact tracked.requested

theorem tracked_ifCreated {handle : QApplicationHandle} {state : State}
    (tracked : Tracked handle state) {function : ApplicationFunction}
    (noExit : function ≠ .requestExit) :
    Tracked handle
      { state with calls := state.calls ++ state.shell.ifCreated function } := by
  apply tracked_append tracked (state.shell.ifCreated function)
  rw [ShellApp.ifCreated]
  split
  · rfl
  · simp [isRequestExit, noExit]

theorem tracked_stop {handle : QApplicationHandle} {state : State}
    (tracked : Tracked handle state) (idle : state.uiThread = .idle) :
    Tracked handle (state.next .stop) := by
  cases created : state.shell.quickApp with
  | none =>
      have unchanged : state.next .stop = state := by
        simp only [State.next, ShellApp.stopRequest, created,
          List.append_nil, Option.isSome_none, Bool.false_eq_true, if_false]
        rw [← idle]
      rw [unchanged]
      exact tracked
  | some application =>
      have passes := tracked.application (by simp [created])
      refine ⟨?_, ?_, ?_⟩
      · intro _
        simpa [State.next, ShellApp.stopRequest, created] using passes
      · intro _
        simp [State.next, ShellApp.stopRequest, created]
      · simp [State.next, ShellApp.stopRequest, created, isRequestExit,
          State.exitRequested]

/-- `stop` is the only step that leaves its mark, and `clear` keeps it. -/
theorem tracked_next {handle : QApplicationHandle} {state : State}
    (event : Event) (tracked : Tracked handle state)
    (isEnabled : state.Enabled event) : Tracked handle (state.next event) := by
  cases event with
  | start => exact tracked_append tracked _ rfl
  | «show» => exact tracked_ifCreated tracked nofun
  | hide => exact tracked_ifCreated tracked nofun
  | route url => exact tracked_ifCreated tracked nofun
  | backpress => exact tracked_ifCreated tracked nofun
  | stop => exact tracked_stop tracked (idle_of_not_clear isEnabled rfl)
  | clear =>
      have stopping : state.uiThread = .stopping := isEnabled.1.mpr rfl
      refine ⟨fun created => (created rfl).elim, nofun, ?_⟩
      apply tracked.requested.trans
      rw [State.exitRequested, stopping]
      rfl
  | notifyEvent event =>
      have unchanged := onNotifyEvent_quickApp state.shell event
      by_cases prepare : event = .prepare
      · rw [prepare]
        obtain ⟨application, stopping, requested⟩ :=
          tracked_append tracked [state.shell.iconManifest] rfl
        exact ⟨application, stopping, requested⟩
      · have same : state.next (.notifyEvent event) =
            { state with shell := (state.shell.onNotifyEvent event).1 } := by
          cases event <;> first | rfl | contradiction
        rw [same]
        refine ⟨?_, ?_, ?_⟩
        · rw [unchanged]
          exact tracked.application
        · rw [unchanged]
          exact tracked.stopping
        · apply tracked.requested.trans
          rw [State.exitRequested, State.exitRequested, unchanged]
  | packagePath =>
      obtain ⟨application, stopping, requested⟩ :=
        tracked_append tracked [state.shell.iconPackagePath] rfl
      exact ⟨application, stopping, requested⟩

/-- A step keeps the discipline exactly when its calls come before the
exit or look at the handle. -/
theorem disciplined_next_iff {handle : QApplicationHandle} {state : State}
    (event : Event) (tracked : Tracked handle state)
    (isEnabled : state.Enabled event) :
    Disciplined handle (state.next event).calls ↔
      Disciplined handle state.calls ∧ BeforeExit state event := by
  have guarded {event : Event} (isEnabled : state.UIEnabled event)
      (notClear : event.isClear = false) (function : ApplicationFunction) :
      Disciplined handle (state.calls ++ state.shell.ifCreated function) ↔
        Disciplined handle state.calls ∧ True :=
    (disciplined_ifCreated tracked (idle_of_not_clear isEnabled notClear)
      function).trans (and_iff_left trivial).symm
  cases event with
  | start => exact disciplined_unguarded tracked .start
  | «show» => exact guarded isEnabled rfl .show
  | hide => exact guarded isEnabled rfl .hide
  | route url => exact guarded isEnabled rfl (.route url)
  | backpress => exact guarded isEnabled rfl .backPress
  | stop =>
      have requests : state.shell.stopRequest.2 =
          state.shell.ifCreated .requestExit := by
        rw [ShellApp.stopRequest, ShellApp.ifCreated]
        split <;> rfl
      rw [State.next, requests]
      exact guarded isEnabled rfl .requestExit
  | clear => exact (and_iff_left trivial).symm
  | notifyEvent event =>
      by_cases prepare : event = .prepare
      · rw [prepare]
        exact disciplined_unguarded tracked .getManifest
      · have same : (state.next (.notifyEvent event)).calls = state.calls ∧
            BeforeExit state (.notifyEvent event) = True := by
          cases event <;> first | exact ⟨rfl, rfl⟩ | contradiction
        rw [same.1, same.2, and_true]
  | packagePath => exact disciplined_unguarded tracked .getPackagePath

section Run

variable (framework : Framework) (url : List Char) (asyncMode : Bool)

private theorem create_quickApp :
    (ShellApp.create (.new url asyncMode) framework).1.quickApp =
      framework.application := by
  obtain ⟨context, application, featureManager, permissions⟩ := framework
  cases permissions <;> cases asyncMode <;> rfl

private theorem create_calls :
    withApplication (ShellApp.create (.new url asyncMode) framework).2 =
      [⟨.start, framework.application⟩] := by
  obtain ⟨context, application, featureManager, permissions⟩ := framework
  cases permissions <;> cases asyncMode <;> rfl

variable {framework : Framework} {handle : QApplicationHandle}
  (created : framework.application = some handle)

include created

theorem tracked_start :
    Tracked handle (system framework url asyncMode).start := by
  have quickApp := create_quickApp framework url asyncMode
  rw [created] at quickApp
  refine ⟨fun _ => quickApp, nofun, ?_⟩
  simp only [system, State.exitRequested, create_calls, quickApp]
  rfl

theorem disciplined_start :
    Disciplined handle (system framework url asyncMode).start.calls := by
  have calls : (system framework url asyncMode).start.calls =
      [] ++ [⟨.start, some handle⟩] := by
    simp only [system, create_calls, created, List.nil_append]
  rw [calls, disciplined_concat]
  exact ⟨⟨nofun, Nat.zero_le 1, by simp⟩, rfl, rfl⟩

end Run

/-- Every run after a successful `create`, in both modes: the calls keep the
discipline if and only if `start` is not called and no splash path is read
after `stop` has requested the exit. -/
theorem handle_disciplined_iff (framework : Framework) (url : List Char)
    (asyncMode : Bool) {handle : QApplicationHandle}
    (created : framework.application = some handle) {events : List Event}
    (run : (system framework url asyncMode).Run
      (system framework url asyncMode).start events) :
    Disciplined handle ((system framework url asyncMode).after
        (system framework url asyncMode).start events).calls ↔
      (system framework url asyncMode).AllSteps BeforeExit
        (system framework url asyncMode).start events := by
  have tracked := tracked_start url asyncMode created
  have disciplined := disciplined_start url asyncMode created
  have whole := run.holds_iff
    (fun state => Disciplined handle state.calls)
    (fun _ event => tracked_next event)
    (fun _ event => disciplined_next_iff event) tracked
  rw [whole]
  exact and_iff_right disciplined

/-- An application with the handle 2. -/
def plainSystem : System State Event :=
  system
    { guiContext := 1
      application := some 2
      featureManager := fun _ => 3
      quickappPermissionManager := false }
    "hap://app/com.a".toList true

instance plainSystem.decidableEnabled (state : State) (event : Event) :
    Decidable (plainSystem.enabled state event) :=
  State.Enabled.decidable state event

/-- The splash path is read, the page is shown, and then the shell stops. -/
theorem handle_disciplined_in_order :
    Disciplined 2 (plainSystem.after plainSystem.start
      [.notifyEvent .prepare, .show, .packagePath, .stop, .clear,
        .backpress]).calls := by
  apply (handle_disciplined_iff _ _ _ rfl ?_).mpr
  · exact ⟨rfl, trivial, rfl, trivial, trivial, trivial, trivial⟩
  · change plainSystem.Run plainSystem.start _
    decide

/-- `stop` comes while the splash path is read, or before `start`. -/
theorem null_handle_after_stop :
    (plainSystem.Run plainSystem.start
        [.notifyEvent .prepare, .stop, .clear, .packagePath] ∧
      ¬Disciplined 2 (plainSystem.after plainSystem.start
        [.notifyEvent .prepare, .stop, .clear, .packagePath]).calls) ∧
    (plainSystem.Run plainSystem.start [.stop, .clear, .start] ∧
      ¬Disciplined 2 (plainSystem.after plainSystem.start
        [.stop, .clear, .start]).calls) := by
  refine ⟨⟨by decide, ?_⟩, ⟨by decide, ?_⟩⟩
  · intro disciplined
    cases disciplined.passed ⟨.getPackagePath, none⟩ (by decide)
  · intro disciplined
    cases disciplined.passed ⟨.start, none⟩ (by decide)

end Handle

end QuickApp.Shell
