import QuickApp.Shell.LaunchUrl

/-!
# Lifecycle rounds

The application framework starts and resumes an activity once and then takes
it through rounds: pause and resume, or pause, stop, restart, start and
resume.  New intents are delivered at any time, and `getIntent` returns the
last one.

Each callback of `QuickActivity` calls at most one method of its shell.  The
address last handed to the application is the one it was created with or the
one it was last routed to.
-/

namespace QuickApp.Shell.Startup

namespace QuickActivity

variable (activity : QuickActivity)

def startedAfter : Lifecycle → Bool
  | .onResume _ => true
  | _ => activity.isStarted

def newIntentAfter : Lifecycle → Bool
  | .onNewIntent => true
  | .onResume _ => activity.isNewIntent && !activity.isStarted
  | _ => activity.isNewIntent

theorem methodCalls_none : activity.methodCalls none = [] := by
  cases isApp : activity.shellApp with
  | none => simp only [methodCalls, isApp]
  | some app => simp only [methodCalls, isApp]

theorem callback_flags (call : Lifecycle) :
    (activity.callback call).1.isStarted = activity.startedAfter call ∧
      (activity.callback call).1.isNewIntent =
        activity.newIntentAfter call := by
  cases call with
  | onResume data =>
      simp only [callback, startedAfter, newIntentAfter]
      cases started : activity.isStarted with
      | false => simp
      | true =>
          cases pending : activity.isNewIntent with
          | false => simp [started, pending]
          | true => simp
  | _ => exact ⟨rfl, rfl⟩

theorem next_eq (call : Lifecycle) :
    activity.next call =
      { activity with
        isStarted := activity.startedAfter call
        isNewIntent := activity.newIntentAfter call
        calls := activity.calls ++
          activity.methodCalls (activity.method call) } := by
  obtain ⟨started, pending⟩ := activity.callback_flags call
  rw [next, callback_kept, started, pending]

section Fields

variable (event : Lifecycle)

@[simp] theorem next_shellApp :
    (activity.next event).shellApp = activity.shellApp := by
  rw [next_eq]

@[simp] theorem next_waits :
    (activity.next event).waits = activity.waits := by
  rw [next_eq]

@[simp] theorem next_isStarted :
    (activity.next event).isStarted = activity.startedAfter event := by
  rw [next_eq]

@[simp] theorem next_isNewIntent :
    (activity.next event).isNewIntent = activity.newIntentAfter event := by
  rw [next_eq]

@[simp] theorem next_calls :
    (activity.next event).calls = activity.calls ++
      activity.methodCalls (activity.method event) := by
  rw [next_eq]

@[simp] theorem intentUrl_next (data : List Char) :
    (activity.next event).intentUrl data = activity.intentUrl data := by
  rw [next_eq, intentUrl, intentUrl]

end Fields

end QuickActivity

end QuickApp.Shell.Startup

namespace QuickApp.Shell.Rounds

open Startup (ActivityCall QuickActivity Lifecycle Method Running)

/-- The callbacks between `onCreate` and `onDestroy`; a new intent carries its
data. -/
inductive Callback where
  | onStart
  | onResume
  | onPause
  | onStop
  | onRestart
  | onNewIntent (data : List Char)
  deriving DecidableEq

/-- The last callback that was not a new intent. -/
inductive Phase where
  | created
  | started
  | resumed
  | paused
  | stopped
  | restarted
  deriving DecidableEq

/-- The phase a callback leads to, where it can come. -/
def Phase.after : Phase → Callback → Option Phase
  | phase, .onNewIntent _ => some phase
  | .created, .onStart => some .started
  | .started, .onResume => some .resumed
  | .resumed, .onPause => some .paused
  | .paused, .onResume => some .resumed
  | .paused, .onStop => some .stopped
  | .stopped, .onRestart => some .restarted
  | .restarted, .onStart => some .started
  | _, _ => none

/-- Only `onStop` leads to a stopped activity, and only `onRestart` away from
one. -/
theorem Phase.stopped_after {phase : Phase} {callback : Callback}
    (canCome : (phase.after callback).isSome) :
    ((phase.after callback).getD phase != .stopped) =
      match callback with
      | .onStop => false
      | .onNewIntent _ => phase != .stopped
      | _ => true := by
  cases callback with
  | onNewIntent data => rfl
  | _ => cases phase <;> first | rfl | cases canCome

theorem Phase.stopped_before {phase : Phase} {callback : Callback}
    (canCome : (phase.after callback).isSome) :
    (phase != .stopped) =
      match callback with
      | .onRestart => false
      | .onNewIntent _ => phase != .stopped
      | _ => true := by
  cases callback with
  | onNewIntent data => rfl
  | _ => cases phase <;> first | rfl | cases canCome

/-- An activity, its phase and the data of `getIntent`.  Two records are kept
beside them: the address built from that intent, and whether an intent has come
since the last `onResume`. -/
structure State where
  activity : QuickActivity
  phase : Phase := .created
  intent : List Char
  wantedUrl : Option (List Char)
  fresh : Bool := false

/-- The address a call hands to the application. -/
def handed : ActivityCall → Option (List Char)
  | .shell (.applicationCreate uri _) => some uri
  | .method (.route url) => some url
  | _ => none

/-- The address handed over last. -/
def handedUrl (calls : List ActivityCall) : Option (List Char) :=
  (calls.filterMap handed).getLast?

/-- The callback with what it reads of the intent. -/
def Callback.lifecycle (intent : List Char) : Callback → Lifecycle
  | .onStart => .onStart
  | .onResume => .onResume intent
  | .onPause => .onPause
  | .onStop => .onStop
  | .onRestart => .onRestart
  | .onNewIntent _ => .onNewIntent

namespace State

variable (state : State)

/-- The method of the shell that a callback calls. -/
def method (callback : Callback) : Option Method :=
  state.activity.method (callback.lifecycle state.intent)

def next (callback : Callback) : State where
  activity := state.activity.next (callback.lifecycle state.intent)
  phase := (state.phase.after callback).getD state.phase
  intent :=
    match callback with
    | .onNewIntent data => data
    | _ => state.intent
  wantedUrl :=
    match callback with
    | .onNewIntent data => some (state.activity.intentUrl data)
    | _ => state.wantedUrl
  fresh :=
    match callback with
    | .onNewIntent _ => true
    | .onResume => false
    | _ => state.fresh

variable (callback : Callback)

@[simp] theorem activity_next : (state.next callback).activity =
    state.activity.next (callback.lifecycle state.intent) := rfl

@[simp] theorem phase_next : (state.next callback).phase =
    (state.phase.after callback).getD state.phase := rfl

theorem method_onResume :
    state.method .onResume =
      if state.activity.isStarted = false then none
      else if state.activity.isNewIntent = true then
        some (.route (state.activity.intentUrl state.intent))
      else some .show := by
  rw [method, Callback.lifecycle, QuickActivity.method,
    QuickActivity.callback]
  cases state.activity.isStarted with
  | false => rfl
  | true =>
      cases state.activity.isNewIntent with
      | false => rfl
      | true => rfl

end State

/-- What an activity is launched with; `data` is that of the launch intent. -/
structure Launch where
  startup : Startup
  packageName : List Char
  data : List Char
  observer : Observer

/-- The activity when `onCreate` returns or waits. -/
def Launch.created (launch : Launch) : State where
  activity := .onCreate { packageName := launch.packageName } launch.startup
    launch.data launch.observer
  intent := launch.data
  wantedUrl := LaunchUrl.coldUrl launch.packageName launch.data

/-- The constructor of the shell has not thrown, and `create` does not wait. -/
def Launch.Returned (launch : Launch) (activity : QuickActivity) : Prop :=
  (LaunchUrl.coldUrl launch.packageName launch.data).isSome ∧
    activity.waits = false

/-- The runs of a launched activity, when `onCreate` has returned. -/
def system (launch : Launch) : System State Callback where
  start := launch.created
  enabled state callback :=
    launch.Returned state.activity ∧ (state.phase.after callback).isSome
  next := State.next

/-- A launch in which every step of the start-up succeeds. -/
def plainLaunch : Launch :=
  { startup := Startup.startupWith (some 2) true
    packageName := "com.a".toList
    data := []
    observer := 4 }

section Handed

theorem handed_methodCalls {activity : QuickActivity}
    (present : activity.shellApp ≠ none) (method : Option Method) :
    (activity.methodCalls method).filterMap handed =
      match method with
      | some (.route url) => [url]
      | _ => [] := by
  obtain ⟨app, isApp⟩ := Option.ne_none_iff_exists'.mp present
  cases method with
  | none => rw [QuickActivity.methodCalls_none, List.filterMap_nil]
  | some method =>
      have framework : ((method.run app).map ActivityCall.application).filterMap
          handed = [] := by
        rw [List.filterMap_map, List.filterMap_eq_nil_iff]
        intro call _
        rfl
      simp only [QuickActivity.methodCalls, isApp]
      cases method with
      | route url =>
          have routed : handed (.method (.route url)) = some url := rfl
          rw [List.filterMap_cons_some routed, framework]
      | _ => rw [List.filterMap_cons_none rfl, framework]

theorem handedUrl_next {state : State} (present : state.activity.shellApp ≠ none)
    (callback : Callback) :
    handedUrl (state.next callback).activity.calls =
      match state.method callback with
      | some (.route url) => some url
      | _ => handedUrl state.activity.calls := by
  have made := handed_methodCalls present (state.method callback)
  rw [State.activity_next, QuickActivity.next_calls, handedUrl,
    List.filterMap_append]
  rw [State.method] at made ⊢
  rw [made]
  split
  · exact List.getLast?_concat
  · rw [List.append_nil, handedUrl]

/-- With the thread in place `create` hands over the address of the shell. -/
theorem handedUrl_onCreate (startup : Startup) (packageName data : List Char)
    (observer : Observer)
    (thread : startup.asyncMode = true → startup.threadCreated = true) :
    handedUrl (QuickActivity.onCreate { packageName } startup data
        observer).calls =
      some (ShellApp.new (packageName ++ data) startup.asyncMode).url := by
  obtain ⟨⟨context, application, featureManager, permissions⟩, asyncMode,
    threadCreated, round⟩ := startup
  cases asyncMode with
  | false => cases permissions <;> rfl
  | true =>
      have created := thread rfl
      subst created
      cases permissions <;> rfl

variable {launch : Launch} (returned : launch.Returned launch.created.activity)

include returned

theorem Launch.Returned.thread :
    launch.startup.asyncMode = true →
      launch.startup.threadCreated = true := by
  intro isAsync
  have waits := Startup.waits_onCreate launch.startup launch.packageName
    launch.data launch.observer
  have both := waits.symm.trans returned.2
  rw [isAsync] at both
  simpa using both

/-- The application is created with the address of a cold start. -/
theorem handedUrl_created :
    handedUrl launch.created.activity.calls =
      LaunchUrl.coldUrl launch.packageName launch.data := by
  obtain ⟨url, isUrl⟩ := Option.isSome_iff_exists.mp returned.1
  have handed := handedUrl_onCreate launch.startup launch.packageName
    launch.data launch.observer returned.thread
  rw [Launch.created, handed, isUrl]
  rw [LaunchUrl.coldUrl, LaunchUrl.createUri_eq, Option.map_eq_some_iff]
    at isUrl
  obtain ⟨strings, constructed, first⟩ := isUrl
  rw [ShellApp.new, constructed, ← first]
  rfl

end Handed

theorem plainLaunch_coldUrl :
    LaunchUrl.coldUrl plainLaunch.packageName plainLaunch.data =
      some "hap://app/com.a".toList := by
  rw [LaunchUrl.coldUrl_eq]
  decide

theorem plainLaunch_constructed :
    (LaunchUrl.coldUrl plainLaunch.packageName plainLaunch.data).isSome := by
  rw [plainLaunch_coldUrl]
  rfl

end QuickApp.Shell.Rounds
