import QuickApp.Shell.Handle
import QuickApp.Url.PackageName

/-!
# Start-up failures and teardown

Two steps of the start-up can fail: `pthread_create` in asynchronous mode and
`QApplicationCreate`.  Neither result is looked at.  `QuickActivity` creates
the shell, passes its lifecycle calls on and tears the shell down in
`onDestroy`: `stop`, then at most 200 rounds of the loop until the GUI context
is gone, then the release of both references.
-/

namespace QuickApp.Shell

/-- The outcomes of the start-up, and the value of `loop_limits` in the round
of `waitUIDestroy` that delivers `OnAppDestroyOnUI` once the exit of an
application was requested. -/
structure Startup where
  framework : Framework
  asyncMode : Bool
  threadCreated : Bool
  destroyRound : Fin 200

/-- The shell and its calls when `create` returns or waits, and how often the
semaphore it waits on is posted, if it waits on one. -/
structure Creation where
  shell : ShellApp
  calls : List Call
  posts : Option Nat := none

/-- Nobody posts the semaphore. -/
def Creation.waits (creation : Creation) : Bool :=
  creation.posts == some 0

namespace ShellApp

variable (app : ShellApp)

/-- `initApplicationAsync`; only the new thread posts `info.sem`. -/
def initApplicationAsync (framework : Framework) (threadCreated : Bool) :
    Creation :=
  if threadCreated then
    let (app, calls) := app.runApplication framework
    { shell := app, calls, posts := some 1 }
  else
    { shell := app, calls := [], posts := some 0 }

def createOn (framework : Framework) (threadCreated : Bool) : Creation :=
  let (app, drawn) := app.initGUIContext framework
  let app :=
    if framework.quickappPermissionManager then
      { app with permissionManager := some {} }
    else
      app
  let creation :=
    if app.asyncMode then
      app.initApplicationAsync framework threadCreated
    else
      let (app, calls) := app.initApplication framework
      { shell := app, calls := calls ++ app.start }
  { creation with calls := drawn ++ creation.calls }

/-- With the thread in place this is `create`. -/
theorem createOn_eq_create (framework : Framework) {threadCreated : Bool}
    (thread : app.asyncMode = true → threadCreated = true) :
    (app.createOn framework threadCreated).shell = (app.create framework).1 ∧
      (app.createOn framework threadCreated).calls =
        (app.create framework).2 ∧
      (app.createOn framework threadCreated).waits = false := by
  obtain ⟨context, application, featureManager, permissions⟩ := framework
  obtain ⟨asyncMode⟩ := app
  cases asyncMode with
  | false => cases permissions <;> exact ⟨rfl, rfl, rfl⟩
  | true =>
      have created := thread rfl
      subst created
      cases permissions <;> exact ⟨rfl, rfl, rfl⟩

/-- `waitUIDestroy` from `loopLimits` on; `delivers` are the rounds in which
the loop runs `OnAppDestroyOnUI`. -/
def waitUIDestroy (delivers : Nat → Bool) :
    Nat → ShellApp → ShellApp × List Call
  | 0, app => (app, [])
  | loopLimits + 1, app =>
      match app.guiContext with
      | none => (app, [])
      | some _ =>
          let (app, calls) :=
            if delivers loopLimits then app.onAppDestroy else (app, [])
          let (app, rest) := waitUIDestroy delivers loopLimits app
          (app, calls ++ rest)

end ShellApp

namespace Startup

/-- The methods of the shell that the activity calls before it stops. -/
inductive Method where
  | «show»
  | hide
  | route (url : List Char)
  | backpress
  deriving DecidableEq

def Method.run (app : ShellApp) : Method → List ApplicationCall
  | .show => app.show
  | .hide => app.hide
  | .route url => app.route url
  | .backpress => app.backpress

/-- Calls of the activity, and what its shell does on its behalf. -/
inductive ActivityCall where
  | messageLoopCreate
  | messageLoopDestroy
  | guiWidgetInit
  | guiWidgetUninit
  | shell (call : Call)
  | method (method : Method)
  | application (call : ApplicationCall)
  | release

/-- The fields of `QuickActivity`, whether it is stuck in `onCreate`, and
whether a failed check has ended the process. -/
structure QuickActivity where
  packageName : List Char
  shellApp : Option ShellApp := none
  isStarted : Bool := false
  isDestroying : Bool := false
  isNewIntent : Bool := true
  waits : Bool := false
  aborted : Bool := false
  calls : List ActivityCall := []

/-- The lifecycle calls before `onDestroy`; `onResume` carries the data of the
intent. -/
inductive Lifecycle where
  | onStart
  | onResume (data : List Char)
  | onRestart
  | onNewIntent
  | onReceiveIntent
  | onPause
  | onStop
  | onBackPressed

/-- The exit of an application was requested. -/
def requestsExit : Call → Bool
  | .applicationRequestExit (some _) => true
  | _ => false

namespace QuickActivity

variable (activity : QuickActivity)

def onCreate (startup : Startup) (data : List Char) (observer : Observer) :
    QuickActivity :=
  let app := ShellApp.new (activity.packageName ++ data) startup.asyncMode
  let creation := (app.addObserver observer).createOn startup.framework
    startup.threadCreated
  { activity with
    shellApp := some creation.shell
    isNewIntent := false
    waits := creation.waits
    calls := activity.calls ++ .messageLoopCreate :: .guiWidgetInit ::
      creation.calls.map .shell }

/-- The address `onResume` routes to. -/
def intentUrl (data : List Char) : List Char :=
  Url.hapPrefix ++ Url.handlePackageName activity.packageName ++ data

/-- What a callback leaves of the activity, and the method it calls. -/
def callback : Lifecycle → QuickActivity × Option Method
  | .onStart => (activity, none)
  | .onResume data =>
      if !activity.isStarted then
        ({ activity with isStarted := true }, none)
      else if activity.isNewIntent then
        ({ activity with isNewIntent := false },
          some (.route (activity.intentUrl data)))
      else
        (activity, some .show)
  | .onRestart => (activity, some .show)
  | .onNewIntent => ({ activity with isNewIntent := true }, none)
  | .onReceiveIntent => (activity, none)
  | .onPause => (activity, none)
  | .onStop => (activity, some .hide)
  | .onBackPressed => (activity, some .backpress)

def method (call : Lifecycle) : Option Method :=
  (activity.callback call).2

/-- The call of a method and what the shell does in it. -/
def methodCalls (method : Option Method) : List ActivityCall :=
  match activity.shellApp, method with
  | some app, some method =>
      .method method :: (method.run app).map .application
  | _, _ => []

def next (call : Lifecycle) : QuickActivity :=
  { (activity.callback call).1 with
    calls := activity.calls ++ activity.methodCalls (activity.method call) }

/-- `onDestroy`; the failing check of `waitUIDestroy` ends the process. -/
def onDestroy (destroyRound : Fin 200) : QuickActivity :=
  match activity.isDestroying, activity.shellApp with
  | false, some app =>
      let (stopped, stopCalls) := app.stop
      let delivers := fun loopLimits =>
        stopCalls.any requestsExit && loopLimits == destroyRound.val
      let (waited, waitCalls) := stopped.waitUIDestroy delivers 200
      let calls := activity.calls ++ (stopCalls ++ waitCalls).map .shell
      if waited.guiContext.isSome then
        { activity with
          shellApp := some waited
          isDestroying := true
          aborted := true
          calls }
      else
        { activity with
          shellApp := none
          isDestroying := true
          calls := calls ++
            [.release, .messageLoopDestroy, .guiWidgetUninit] }
  | _, _ => activity

end QuickActivity

/-- An activity from `onCreate` to `onDestroy`.  A UI thread that waits in
`create` gets no further. -/
def run (startup : Startup) (packageName data : List Char)
    (observer : Observer) (lifecycle : List Lifecycle) : QuickActivity :=
  let created := QuickActivity.onCreate { packageName } startup data observer
  if created.waits then created
  else
    (lifecycle.foldl QuickActivity.next created).onDestroy startup.destroyRound

/-- The GUI context a call destroys. -/
def destroyedContext : ActivityCall → Option GUIWidgetContextHandle
  | .shell (.guiWidgetContextDestroy context) => some context
  | _ => none

def isManagerTeardown : ActivityCall → Bool
  | .shell .permissionManagerUninit => true
  | .shell .permissionManagerReset => true
  | _ => false

/-- `create` has returned, no check has failed, the GUI context was destroyed
once, and the permission manager was uninitialised and destroyed. -/
structure CleanTeardown (framework : Framework) (activity : QuickActivity) :
    Prop where
  returned : activity.waits = false
  checked : activity.aborted = false
  context : activity.calls.filterMap destroyedContext = [framework.guiContext]
  manager : framework.quickappPermissionManager = true →
    activity.calls.filter isManagerTeardown =
      [.shell .permissionManagerUninit, .shell .permissionManagerReset]

/-- No step of the start-up fails. -/
structure Succeeds (startup : Startup) : Prop where
  thread : startup.asyncMode = true → startup.threadCreated = true
  application : startup.framework.application ≠ none

/-- Calls that tear nothing down. -/
structure Quiet (calls : List ActivityCall) : Prop where
  context : calls.filterMap destroyedContext = []
  manager : calls.filter isManagerTeardown = []

theorem Quiet.append {first second : List ActivityCall} (left : Quiet first)
    (right : Quiet second) : Quiet (first ++ second) := by
  constructor
  · rw [List.filterMap_append, left.context, right.context, List.append_nil]
  · rw [List.filter_append, left.manager, right.manager, List.append_nil]

theorem quiet_methodCalls (activity : QuickActivity)
    (method : Option Method) : Quiet (activity.methodCalls method) := by
  simp only [QuickActivity.methodCalls]
  split
  · constructor
    · apply List.filterMap_eq_nil_iff.mpr
      intro call member
      rcases List.mem_cons.mp member with rfl | member
      · rfl
      · obtain ⟨_, _, rfl⟩ := List.mem_map.mp member
        rfl
    · apply List.filter_eq_nil_iff.mpr
      intro call member
      rcases List.mem_cons.mp member with rfl | member
      · simp [isManagerTeardown]
      · obtain ⟨_, _, rfl⟩ := List.mem_map.mp member
        simp [isManagerTeardown]
  · exact ⟨rfl, rfl⟩

/-- The shell that `create` leaves behind. -/
structure Intact (framework : Framework) (app : ShellApp) : Prop where
  application : app.quickApp = framework.application
  context : app.guiContext = some framework.guiContext
  manager : app.permissionManager.isSome = framework.quickappPermissionManager

/-- An activity between a `create` that has returned and `onDestroy`. -/
structure Running (framework : Framework) (activity : QuickActivity) :
    Prop where
  app : ∃ app, activity.shellApp = some app ∧ Intact framework app
  kept : activity.isDestroying = false
  returned : activity.waits = false
  checked : activity.aborted = false
  quiet : Quiet activity.calls

theorem waits_onCreate (startup : Startup) (packageName data : List Char)
    (observer : Observer) :
    (QuickActivity.onCreate { packageName } startup data observer).waits =
      (startup.asyncMode && !startup.threadCreated) := by
  obtain ⟨⟨context, application, featureManager, permissions⟩, asyncMode,
    threadCreated, round⟩ := startup
  cases permissions <;> cases asyncMode <;> cases threadCreated <;> rfl

theorem running_onCreate (startup : Startup) (packageName data : List Char)
    (observer : Observer)
    (thread : startup.asyncMode = true → startup.threadCreated = true) :
    Running startup.framework
      (QuickActivity.onCreate { packageName } startup data observer) := by
  have returned := waits_onCreate startup packageName data observer
  obtain ⟨⟨context, application, featureManager, permissions⟩, asyncMode,
    threadCreated, round⟩ := startup
  refine ⟨⟨_, rfl, ?_⟩, rfl, ?_, rfl, ?_⟩
  · cases permissions <;> cases asyncMode <;> cases threadCreated <;>
      first
      | exact ⟨rfl, rfl, rfl⟩
      | cases thread rfl
  · rw [returned]
    cases asyncMode with
    | false => rfl
    | true => simpa using thread rfl
  · cases permissions <;> cases asyncMode <;> cases threadCreated <;>
      exact ⟨rfl, rfl⟩

theorem callback_kept (activity : QuickActivity) (call : Lifecycle) :
    (activity.callback call).1 =
      { activity with
        isStarted := (activity.callback call).1.isStarted
        isNewIntent := (activity.callback call).1.isNewIntent } := by
  cases call with
  | onResume data =>
      simp only [QuickActivity.callback]
      split
      · rfl
      · split
        · rfl
        · rfl
  | _ => rfl

theorem running_next {framework : Framework} (activity : QuickActivity)
    (call : Lifecycle) (running : Running framework activity) :
    Running framework (activity.next call) := by
  rw [QuickActivity.next, callback_kept]
  exact
    { app := running.app
      kept := running.kept
      returned := running.returned
      checked := running.checked
      quiet := running.quiet.append (quiet_methodCalls activity _) }

theorem running_foldl {framework : Framework} {activity : QuickActivity}
    (running : Running framework activity) (lifecycle : List Lifecycle) :
    Running framework (lifecycle.foldl QuickActivity.next activity) := by
  induction lifecycle generalizing activity with
  | nil => exact running
  | cons event lifecycle induction =>
      exact induction (running_next activity event running)

theorem waitUIDestroy_done (delivers : Nat → Bool) (loopLimits : Nat)
    {app : ShellApp} (done : app.guiContext = none) :
    app.waitUIDestroy delivers loopLimits = (app, []) := by
  cases loopLimits with
  | zero => rfl
  | succ loopLimits => rw [ShellApp.waitUIDestroy, done]

/-- The round that runs `OnAppDestroyOnUI` destroys the context, and the loop
ends there. -/
theorem waitUIDestroy_delivered {delivers : Nat → Bool} {round : Nat}
    (delivered : delivers round = true) {app : ShellApp}
    {context : GUIWidgetContextHandle} (present : app.guiContext = some context)
    {loopLimits : Nat} (early : round < loopLimits) :
    app.waitUIDestroy delivers loopLimits =
      ({ app with guiContext := none }, [.guiWidgetContextDestroy context]) := by
  induction loopLimits with
  | zero => cases early
  | succ loopLimits induction =>
      rw [ShellApp.waitUIDestroy, present]
      cases now : delivers loopLimits with
      | true =>
          simp only [ShellApp.onAppDestroy, present, if_true]
          rw [waitUIDestroy_done delivers loopLimits rfl]
          rfl
      | false =>
          have earlier : round < loopLimits := by
            rcases Nat.lt_succ_iff_lt_or_eq.mp early with earlier | same
            · exact earlier
            · rw [same, now] at delivered
              cases delivered
          simp only [Bool.false_eq_true, if_false]
          rw [induction earlier]
          rfl

theorem waitUIDestroy_silent (app : ShellApp) (loopLimits : Nat) :
    app.waitUIDestroy (fun _ => false) loopLimits = (app, []) := by
  induction loopLimits with
  | zero => rfl
  | succ loopLimits induction =>
      rw [ShellApp.waitUIDestroy]
      cases app.guiContext with
      | none => rfl
      | some context =>
          simp only [Bool.false_eq_true, if_false]
          rw [induction]
          rfl

theorem stop_guiContext (app : ShellApp) :
    app.stop.1.guiContext = app.guiContext := by
  rw [ShellApp.stop]
  split <;> rfl

theorem stop_requestsExit {app : ShellApp} (created : app.quickApp ≠ none) :
    app.stop.2.any requestsExit = true := by
  obtain ⟨application, isApplication⟩ := Option.ne_none_iff_exists'.mp created
  rw [ShellApp.stop, isApplication, List.any_append, Bool.or_eq_true]
  right
  rfl

theorem stop_destroyedContext (app : ShellApp) :
    (app.stop.2.map ActivityCall.shell).filterMap destroyedContext = [] := by
  rw [ShellApp.stop]
  split
  · rfl
  · cases app.permissionManager <;> rfl

theorem stop_managerTeardown {app : ShellApp} (created : app.quickApp ≠ none)
    (managed : app.permissionManager.isSome = true) :
    (app.stop.2.map ActivityCall.shell).filter isManagerTeardown =
      [.shell .permissionManagerUninit, .shell .permissionManagerReset] := by
  obtain ⟨application, isApplication⟩ := Option.ne_none_iff_exists'.mp created
  obtain ⟨manager, isManager⟩ := Option.isSome_iff_exists.mp managed
  rw [ShellApp.stop, isApplication, isManager]
  rfl

theorem onDestroy_created {framework : Framework} {activity : QuickActivity}
    (running : Running framework activity) (destroyRound : Fin 200)
    (created : framework.application ≠ none) :
    CleanTeardown framework (activity.onDestroy destroyRound) := by
  obtain ⟨app, isApp, intact⟩ := running.app
  have application : app.quickApp ≠ none := by
    rw [intact.application]
    exact created
  have present : app.stop.1.guiContext = some framework.guiContext :=
    (stop_guiContext app).trans intact.context
  have delivered : (app.stop.2.any requestsExit &&
      destroyRound.val == destroyRound.val) = true := by
    rw [stop_requestsExit application, beq_self_eq_true, Bool.and_true]
  have waited : app.stop.1.waitUIDestroy
      (fun loopLimits => app.stop.2.any requestsExit &&
        loopLimits == destroyRound.val) 200 =
      ({ app.stop.1 with guiContext := none },
        [.guiWidgetContextDestroy framework.guiContext]) :=
    waitUIDestroy_delivered delivered present destroyRound.isLt
  have destroyed : activity.onDestroy destroyRound =
      { activity with
        shellApp := none
        isDestroying := true
        calls := activity.calls ++
          (app.stop.2.map .shell ++
            [.shell (.guiWidgetContextDestroy framework.guiContext)]) ++
          [.release, .messageLoopDestroy, .guiWidgetUninit] } := by
    simp only [QuickActivity.onDestroy, running.kept, isApp, waited,
      List.map_append]
    rfl
  rw [destroyed]
  refine ⟨running.returned, running.checked, ?_, ?_⟩
  · simp only [List.filterMap_append, running.quiet.context,
      stop_destroyedContext]
    rfl
  · intro configured
    have managed := stop_managerTeardown application
      (intact.manager.trans configured)
    simp only [List.filter_append, running.quiet.manager, managed]
    rfl

theorem onDestroy_missing {framework : Framework} {activity : QuickActivity}
    (running : Running framework activity) (destroyRound : Fin 200)
    (missing : framework.application = none) :
    (activity.onDestroy destroyRound).aborted = true := by
  obtain ⟨app, isApp, intact⟩ := running.app
  have stopped : app.stop = (app, []) := by
    rw [ShellApp.stop, intact.application, missing]
  have waited : app.waitUIDestroy
      (fun loopLimits => ([] : List Call).any requestsExit &&
        loopLimits == destroyRound.val) 200 = (app, []) :=
    waitUIDestroy_silent app 200
  simp only [QuickActivity.onDestroy, running.kept, isApp, stopped, waited,
    intact.context, Option.isSome_some, if_true]

/-- Every start-up and every sequence of lifecycle calls, in both modes: the
teardown is clean if and only if no step of the start-up fails. -/
theorem clean_teardown_iff (startup : Startup) (packageName data : List Char)
    (observer : Observer) (lifecycle : List Lifecycle) :
    CleanTeardown startup.framework
        (run startup packageName data observer lifecycle) ↔
      Succeeds startup := by
  have waits := waits_onCreate startup packageName data observer
  rw [run]
  by_cases thread : startup.asyncMode = true → startup.threadCreated = true
  · have running := running_onCreate startup packageName data observer thread
    have runningAfter := running_foldl running lifecycle
    rw [if_neg (Bool.eq_false_iff.mp running.returned)]
    constructor
    · intro clean
      refine ⟨thread, fun missing => ?_⟩
      have aborted := onDestroy_missing runningAfter startup.destroyRound
        missing
      cases aborted.symm.trans clean.checked
    · intro succeeds
      exact onDestroy_created runningAfter startup.destroyRound
        succeeds.application
  · have stuck : (QuickActivity.onCreate { packageName } startup data
        observer).waits = true := by
      simpa [waits] using thread
    rw [if_pos stuck]
    refine iff_of_false ?_ fun succeeds => thread succeeds.thread
    intro clean
    cases stuck.symm.trans clean.returned

/-- A start-up whose exit is answered in the first round. -/
def startupWith (application : Option QApplicationHandle)
    (threadCreated : Bool) : Startup where
  framework :=
    { guiContext := 1
      application
      featureManager := fun _ => 3
      quickappPermissionManager := true }
  asyncMode := true
  threadCreated
  destroyRound := 199

/-- Without the thread `create` never returns.  Without the application the
context and the permission manager stay, and the check of `waitUIDestroy`
fails. -/
theorem failed_startup :
    (run (startupWith (some 2) false) "com.a".toList [] 0 []).waits = true ∧
      ¬CleanTeardown (startupWith (some 2) false).framework
        (run (startupWith (some 2) false) "com.a".toList [] 0 []) ∧
    (run (startupWith none true) "com.a".toList [] 0 [.onResume []]).aborted =
      true ∧
      ¬CleanTeardown (startupWith none true).framework
        (run (startupWith none true) "com.a".toList [] 0 [.onResume []]) := by
  have waits :
      (run (startupWith (some 2) false) "com.a".toList [] 0 []).waits = true :=
    rfl
  have running := running_onCreate (startupWith none true) "com.a".toList []
    0 fun _ => rfl
  have aborted : (run (startupWith none true) "com.a".toList [] 0
      [.onResume []]).aborted = true := by
    rw [run, if_neg (Bool.eq_false_iff.mp running.returned)]
    exact onDestroy_missing (running_foldl running _) _ rfl
  refine ⟨waits, ?_, aborted, ?_⟩
  · intro clean
    cases waits.symm.trans clean.returned
  · intro clean
    cases aborted.symm.trans clean.checked

end Startup

end QuickApp.Shell
