import QuickApp.Ownership
import QuickApp.Shell.Rounds

/-!
# The life of an activity

An activity owns its shell through `shell_app_`, and the shell owns itself
through the client context that `initAppClient` makes and only `release`
deletes.  A message loop and a reference to the GUI come and go with it.
`onDestroy` gives all of this back, once: `is_destroying_` is never reset.

The framework may make the callbacks in any order here, and destroys the
activity at the end.
-/

namespace QuickApp.Shell.Startup

open QuickApp.Ownership

/-- Who holds a `shared_ptr<ShellApp>`: the activity, or the `SharedShellApp`
of the client context. -/
inductive Owner where
  | activity
  | client
  deriving DecidableEq

/-- The activity, the owners of the shell it points to and of those it does
not point to any more, and how often it used a null pointer. -/
structure Holdings where
  activity : QuickActivity
  shared : Option (Shared Owner) := none
  abandoned : List (Shared Owner) := []
  nullUses : Nat := 0
  deleted : Bool := false

/-- The callbacks of an activity, with what the start-up and the teardown
meet, and `~QuickActivity`. -/
inductive Callback where
  | onCreate (startup : Startup) (data : List Char) (observer : Observer)
  | lifecycle (call : Lifecycle)
  | onDestroy (destroyRound : Fin 200)
  | delete

/-- `ShellApp::Create` and `initAppClient`. -/
def createdShared : Shared Owner :=
  Shared.gain { useCount := 1, owners := [.activity] } .client

namespace Holdings

variable (holdings : Holdings)

/-- The assignment of another pointer to `shell_app_`. -/
def abandon : List (Shared Owner) :=
  (holdings.shared.map fun shared => shared.lose .activity).toList ++
    holdings.abandoned

/-- `release` and the reset of `shell_app_`. -/
def releaseAndReset : List (Shared Owner) :=
  (holdings.shared.map fun shared =>
      (shared.lose .client).lose .activity).toList ++
    holdings.abandoned

/-- The callback goes through a null `shell_app_`. -/
def usesNull (call : Lifecycle) : Bool :=
  (holdings.activity.method call).isSome && holdings.activity.shellApp.isNone

def next : Callback → Holdings
  | .onCreate startup data observer =>
      { holdings with
        activity := holdings.activity.onCreate startup data observer
        shared := some createdShared
        abandoned := holdings.abandon }
  | .lifecycle call =>
      { holdings with
        activity := holdings.activity.next call
        nullUses := holdings.nullUses + (holdings.usesNull call).toNat }
  | .onDestroy destroyRound =>
      if holdings.activity.isDestroying then holdings
      else if holdings.activity.shellApp.isNone then
        { holdings with
          activity := { holdings.activity with isDestroying := true }
          nullUses := holdings.nullUses + 1 }
      else
        let activity := holdings.activity.onDestroy destroyRound
        if activity.aborted then { holdings with activity }
        else
          { holdings with
            activity
            shared := none
            abandoned := holdings.releaseAndReset }
  | .delete =>
      { holdings with
        activity := { holdings.activity with shellApp := none }
        shared := none
        abandoned := holdings.abandon
        deleted := true }

end Holdings

/-- The callbacks in any order, until the activity is destroyed, the process
has ended or `create` does not return. -/
def lives (packageName : List Char) : System Holdings Callback where
  start := { activity := { packageName } }
  enabled holdings _ := holdings.deleted = false ∧
    holdings.activity.aborted = false ∧ holdings.activity.waits = false
  next := Holdings.next

/-- What the calls have taken of something and not given back. -/
def balance (taken : ActivityCall → Int) : List ActivityCall → Int
  | [] => 0
  | call :: calls => taken call + balance taken calls

def messageLoops : ActivityCall → Int
  | .messageLoopCreate => 1
  | .messageLoopDestroy => -1
  | _ => 0

def guiWidgets : ActivityCall → Int
  | .guiWidgetInit => 1
  | .guiWidgetUninit => -1
  | _ => 0

/-- No null pointer was used, no check has failed, every callback has
returned; of everything the activity has taken only one shell is left, with
its message loop and its use of the GUI, and this one can be destroyed. -/
structure Orderly (holdings : Holdings) : Prop where
  used : holdings.nullUses = 0
  checked : holdings.activity.aborted = false
  returned : holdings.activity.waits = false
  abandoned : ∀ shared ∈ holdings.abandoned, shared.destroyed = 1
  loops : balance messageLoops holdings.activity.calls =
    if holdings.activity.shellApp.isSome then 1 else 0
  widgets : balance guiWidgets holdings.activity.calls =
    if holdings.activity.shellApp.isSome then 1 else 0
  destroyable : holdings.activity.shellApp.isSome →
    holdings.activity.isDestroying = false

/-- A shell is created only without one and before the destruction, and its
thread starts; it is there when a callback goes through it; it has an
application when it is destroyed, and was destroyed before the activity is. -/
def Legal (holdings : Holdings) : Callback → Prop
  | .onCreate startup _ _ => holdings.activity.shellApp = none ∧
      holdings.activity.isDestroying = false ∧
      (startup.asyncMode = true → startup.threadCreated = true)
  | .lifecycle call => (holdings.activity.method call).isSome →
      holdings.activity.shellApp.isSome
  | .onDestroy _ => holdings.activity.isDestroying = true ∨
      ∃ app, holdings.activity.shellApp = some app ∧ app.quickApp ≠ none
  | .delete => holdings.activity.shellApp = none

theorem counted_createdShared : createdShared.Counted := by
  apply Shared.Counted.gain
  · exact ⟨rfl, rfl⟩
  · exact List.mem_singleton.mpr rfl

/-- The client context keeps a shell that the activity lets go. -/
theorem createdShared_abandoned :
    (createdShared.lose .activity).destroyed = 0 := by
  have counted : (createdShared.lose .activity).Counted :=
    counted_createdShared.lose (by decide)
  have client : Owner.client ∈ (createdShared.lose .activity).owners := by
    decide
  exact counted.alive client

theorem createdShared_released :
    ((createdShared.lose .client).lose .activity).destroyed = 1 := by
  have counted : ((createdShared.lose .client).lose .activity).Counted :=
    (counted_createdShared.lose (by decide)).lose (by decide)
  exact counted.destroyed_iff.mpr rfl

/-- The shell the activity points to has both owners, and its GUI context is
in place. -/
structure Owned (holdings : Holdings) : Prop where
  unshared : holdings.activity.shellApp = none → holdings.shared = none
  shared : ∀ app, holdings.activity.shellApp = some app →
    holdings.shared = some createdShared ∧ app.guiContext ≠ none

section Abandoned

variable {holdings : Holdings}

theorem abandon_destroyed_iff (owned : Owned holdings)
    (orderly : Orderly holdings) :
    (∀ shared ∈ holdings.abandon, shared.destroyed = 1) ↔
      holdings.activity.shellApp = none := by
  cases isApp : holdings.activity.shellApp with
  | none =>
      rw [Holdings.abandon, owned.unshared isApp]
      exact iff_of_true orderly.abandoned rfl
  | some app =>
      rw [Holdings.abandon, (owned.shared app isApp).1]
      refine iff_of_false ?_ (Option.some_ne_none app)
      intro all
      have destroyed := all (createdShared.lose .activity)
        (List.mem_append_left _ (List.mem_singleton.mpr rfl))
      rw [createdShared_abandoned] at destroyed
      cases destroyed

theorem releaseAndReset_destroyed (owned : Owned holdings)
    (orderly : Orderly holdings) {app : ShellApp}
    (isApp : holdings.activity.shellApp = some app) :
    ∀ shared ∈ holdings.releaseAndReset, shared.destroyed = 1 := by
  rw [Holdings.releaseAndReset, (owned.shared app isApp).1]
  intro shared member
  rcases List.mem_append.mp member with released | before
  · rw [List.mem_singleton.mp released]
    exact createdShared_released
  · exact orderly.abandoned shared before

end Abandoned

section Balance

variable {taken : ActivityCall → Int}

theorem balance_append (first second : List ActivityCall) :
    balance taken (first ++ second) =
      balance taken first + balance taken second := by
  induction first with
  | nil =>
      rw [List.nil_append, balance, Int.zero_add]
  | cons call first induction =>
      rw [List.cons_append, balance, balance, induction, Int.add_assoc]

/-- Calls other than those at the two ends. -/
def isInner : ActivityCall → Bool
  | .messageLoopCreate => false
  | .messageLoopDestroy => false
  | .guiWidgetInit => false
  | .guiWidgetUninit => false
  | _ => true

/-- What is counted is taken and given back at the two ends only. -/
def AtEnds (taken : ActivityCall → Int) : Prop :=
  ∀ call, isInner call → taken call = 0

theorem messageLoops_atEnds : AtEnds messageLoops := by
  intro call inner
  cases call with
  | messageLoopCreate => cases inner
  | messageLoopDestroy => cases inner
  | _ => rfl

theorem guiWidgets_atEnds : AtEnds guiWidgets := by
  intro call inner
  cases call with
  | guiWidgetInit => cases inner
  | guiWidgetUninit => cases inner
  | _ => rfl

theorem balance_inner (atEnds : AtEnds taken) {calls : List ActivityCall}
    (inner : ∀ call ∈ calls, isInner call) : balance taken calls = 0 := by
  induction calls with
  | nil => rfl
  | cons call calls induction =>
      obtain ⟨first, rest⟩ := List.forall_mem_cons.mp inner
      rw [balance, atEnds call first, Int.zero_add]
      exact induction rest

theorem isInner_methodCalls (activity : QuickActivity)
    (method : Option Method) :
    ∀ call ∈ activity.methodCalls method, isInner call := by
  simp only [QuickActivity.methodCalls]
  split
  · intro call member
    rcases List.mem_cons.mp member with rfl | member
    · rfl
    · obtain ⟨_, _, rfl⟩ := List.mem_map.mp member
      rfl
  · exact fun _ impossible => by cases impossible

theorem isInner_shell (calls : List Call) :
    ∀ call ∈ calls.map ActivityCall.shell, isInner call := by
  intro call member
  obtain ⟨_, _, rfl⟩ := List.mem_map.mp member
  rfl

end Balance

private theorem createOn_shell (app : ShellApp) (framework : Framework)
    (threadCreated : Bool) :
    (app.createOn framework threadCreated).shell.guiContext ≠ none ∧
      (app.createOn framework threadCreated).waits =
        (app.asyncMode && !threadCreated) := by
  obtain ⟨context, application, featureManager, permissions⟩ := framework
  obtain ⟨asyncMode, url, name, quickApp, before, manager⟩ := app
  cases permissions <;> cases asyncMode <;> cases threadCreated <;>
    cases manager <;> exact ⟨Option.some_ne_none context, rfl⟩

/-- A new shell with its GUI context, and what comes with it. -/
theorem onCreate_creates (activity : QuickActivity) (startup : Startup)
    (data : List Char) (observer : Observer) :
    ∃ app, ∃ calls : List Call, app.guiContext ≠ none ∧
      activity.onCreate startup data observer =
        { activity with
          shellApp := some app
          isNewIntent := false
          waits := startup.asyncMode && !startup.threadCreated
          calls := activity.calls ++ .messageLoopCreate :: .guiWidgetInit ::
            calls.map .shell } := by
  let app := (ShellApp.new (activity.packageName ++ data)
    startup.asyncMode).addObserver observer
  obtain ⟨context, waits⟩ := createOn_shell app startup.framework
    startup.threadCreated
  refine ⟨_, (app.createOn startup.framework startup.threadCreated).calls,
    context, ?_⟩
  have mode : app.asyncMode = startup.asyncMode := rfl
  rw [← mode, ← waits]
  rfl

theorem onDestroy_destroys {activity : QuickActivity} {app : ShellApp}
    (destroyRound : Fin 200) (isOpen : activity.isDestroying = false)
    (isApp : activity.shellApp = some app) (context : app.guiContext ≠ none)
    (created : app.quickApp ≠ none) :
    ∃ calls, (∀ call ∈ calls, isInner call) ∧
      activity.onDestroy destroyRound =
        { activity with
          shellApp := none
          isDestroying := true
          calls := activity.calls ++
            (calls ++ [.messageLoopDestroy, .guiWidgetUninit]) } := by
  obtain ⟨context, isContext⟩ := Option.ne_none_iff_exists'.mp context
  have delivered : (app.stop.2.any requestsExit &&
      destroyRound.val == destroyRound.val) = true := by
    rw [stop_requestsExit created, beq_self_eq_true, Bool.and_true]
  have waited : app.stop.1.waitUIDestroy
      (fun loopLimits => app.stop.2.any requestsExit &&
        loopLimits == destroyRound.val) 200 =
      ({ app.stop.1 with guiContext := none },
        [.guiWidgetContextDestroy context]) :=
    waitUIDestroy_delivered delivered
      ((stop_guiContext app).trans isContext) destroyRound.isLt
  refine ⟨(app.stop.2 ++ [Call.guiWidgetContextDestroy context]).map .shell ++
    [.release], ?_, ?_⟩
  · intro call member
    rcases List.mem_append.mp member with shell | release
    · exact isInner_shell _ call shell
    · rw [List.mem_singleton.mp release]
      rfl
  · simp only [QuickActivity.onDestroy, isOpen, isApp, waited]
    simp

/-- Without an application the check of `waitUIDestroy` fails. -/
theorem onDestroy_aborts {activity : QuickActivity} {app : ShellApp}
    (destroyRound : Fin 200) (isOpen : activity.isDestroying = false)
    (isApp : activity.shellApp = some app) (context : app.guiContext ≠ none)
    (missing : app.quickApp = none) :
    (activity.onDestroy destroyRound).aborted = true := by
  have stopped : app.stop = (app, []) := by
    rw [ShellApp.stop, missing]
  have waited : app.waitUIDestroy
      (fun loopLimits => ([] : List Call).any requestsExit &&
        loopLimits == destroyRound.val) 200 = (app, []) :=
    waitUIDestroy_silent app 200
  have present : app.guiContext.isSome = true :=
    Option.ne_none_iff_isSome.mp context
  simp only [QuickActivity.onDestroy, isOpen, isApp, stopped, waited,
    present, if_true]

section Step

variable {holdings : Holdings}

private theorem balance_created {taken : ActivityCall → Int}
    (atEnds : AtEnds taken) (calls : List Call) :
    balance taken (.messageLoopCreate :: .guiWidgetInit ::
        calls.map .shell) =
      taken .messageLoopCreate + taken .guiWidgetInit := by
  have inner : balance taken (calls.map .shell) = 0 :=
    balance_inner atEnds (isInner_shell calls)
  rw [balance, balance, inner, Int.add_zero]

private theorem balance_destroyed {taken : ActivityCall → Int}
    (atEnds : AtEnds taken) {calls : List ActivityCall}
    (inner : ∀ call ∈ calls, isInner call) :
    balance taken (calls ++ [.messageLoopDestroy, .guiWidgetUninit]) =
      taken .messageLoopDestroy + taken .guiWidgetUninit := by
  rw [balance_append, balance_inner atEnds inner]
  simp only [balance, Int.add_zero, Int.zero_add]

private theorem orderly_onCreate_iff (owned : Owned holdings)
    (orderly : Orderly holdings) (startup : Startup) (data : List Char)
    (observer : Observer) :
    Orderly (holdings.next (.onCreate startup data observer)) ↔
      Legal holdings (.onCreate startup data observer) := by
  obtain ⟨app, calls, _, created⟩ :=
    onCreate_creates holdings.activity startup data observer
  have waits : (startup.asyncMode && !startup.threadCreated) = false ↔
      (startup.asyncMode = true → startup.threadCreated = true) := by
    cases startup.asyncMode <;> cases startup.threadCreated <;> simp
  constructor
  · intro after
    have absent := (abandon_destroyed_iff owned orderly).mp after.abandoned
    have isOpen := after.destroyable
    have returned := after.returned
    simp only [Holdings.next, created] at isOpen returned
    exact ⟨absent, isOpen rfl, waits.mp returned⟩
  · rintro ⟨absent, isOpen, thread⟩
    have loops := orderly.loops
    have widgets := orderly.widgets
    rw [absent] at loops widgets
    simp only [Holdings.next, created]
    exact
      { used := orderly.used
        checked := orderly.checked
        returned := waits.mpr thread
        abandoned := (abandon_destroyed_iff owned orderly).mpr absent
        loops := by
          rw [balance_append, loops, balance_created messageLoops_atEnds]
          rfl
        widgets := by
          rw [balance_append, widgets, balance_created guiWidgets_atEnds]
          rfl
        destroyable := fun _ => isOpen }

private theorem orderly_lifecycle_iff (orderly : Orderly holdings)
    (call : Lifecycle) :
    Orderly (holdings.next (.lifecycle call)) ↔
      Legal holdings (.lifecycle call) := by
  have legal : Legal holdings (.lifecycle call) ↔
      holdings.usesNull call = false := by
    rw [Legal, Holdings.usesNull]
    cases (holdings.activity.method call).isSome <;>
      cases holdings.activity.shellApp <;> simp
  rw [legal]
  constructor
  · intro after
    have used := after.used
    simp only [Holdings.next, orderly.used] at used
    cases null : holdings.usesNull call with
    | false => rfl
    | true =>
        rw [null] at used
        cases used
  · intro notNull
    have kept {taken : ActivityCall → Int} (atEnds : AtEnds taken) :
        balance taken (holdings.activity.next call).calls =
          balance taken holdings.activity.calls := by
      rw [QuickActivity.next_calls, balance_append,
        balance_inner atEnds (isInner_methodCalls _ _)]
      omega
    have fields := holdings.activity.next_eq call
    simp only [Holdings.next, notNull]
    exact
      { used := orderly.used
        checked := by
          rw [fields]
          exact orderly.checked
        returned := by
          rw [fields]
          exact orderly.returned
        abandoned := orderly.abandoned
        loops := by
          rw [kept messageLoops_atEnds, QuickActivity.next_shellApp]
          exact orderly.loops
        widgets := by
          rw [kept guiWidgets_atEnds, QuickActivity.next_shellApp]
          exact orderly.widgets
        destroyable := by
          rw [fields]
          exact orderly.destroyable }

private theorem orderly_onDestroy_iff (owned : Owned holdings)
    (orderly : Orderly holdings) (destroyRound : Fin 200) :
    Orderly (holdings.next (.onDestroy destroyRound)) ↔
      Legal holdings (.onDestroy destroyRound) := by
  cases isDestroying : holdings.activity.isDestroying with
  | true =>
      have same : holdings.next (.onDestroy destroyRound) = holdings := by
        simp only [Holdings.next, isDestroying, if_true]
      rw [same]
      exact iff_of_true orderly (.inl isDestroying)
  | false =>
      have legal : Legal holdings (.onDestroy destroyRound) ↔
          ∃ app, holdings.activity.shellApp = some app ∧
            app.quickApp ≠ none := by
        rw [Legal, isDestroying]
        simp
      rw [legal]
      cases isApp : holdings.activity.shellApp with
      | none =>
          refine iff_of_false ?_ fun ⟨app, impossible, _⟩ => by
            cases impossible
          intro after
          have used := after.used
          simp [Holdings.next, isDestroying, isApp] at used
      | some app =>
          obtain ⟨_, context⟩ := owned.shared app isApp
          by_cases created : app.quickApp = none
          · have aborted := onDestroy_aborts destroyRound isDestroying isApp
              context created
            apply iff_of_false
            · intro after
              have checked := after.checked
              simp [Holdings.next, isDestroying, isApp, aborted] at checked
            · rintro ⟨other, same, isCreated⟩
              rw [Option.some.injEq] at same
              exact isCreated (same ▸ created)
          · refine iff_of_true ?_ ⟨app, rfl, created⟩
            obtain ⟨calls, inner, destroyed⟩ := onDestroy_destroys
              destroyRound isDestroying isApp context created
            have loops := orderly.loops
            have widgets := orderly.widgets
            rw [isApp] at loops widgets
            have checked : (holdings.activity.onDestroy
                destroyRound).aborted = false := by
              rw [destroyed]
              exact orderly.checked
            have after : holdings.next (.onDestroy destroyRound) =
                { holdings with
                  activity := holdings.activity.onDestroy destroyRound
                  shared := none
                  abandoned := holdings.releaseAndReset } := by
              simp [Holdings.next, isDestroying, isApp, checked]
            rw [after, destroyed]
            exact
              { used := orderly.used
                checked := orderly.checked
                returned := orderly.returned
                abandoned := releaseAndReset_destroyed owned orderly isApp
                loops := by
                  rw [balance_append, loops,
                    balance_destroyed messageLoops_atEnds inner]
                  rfl
                widgets := by
                  rw [balance_append, widgets,
                    balance_destroyed guiWidgets_atEnds inner]
                  rfl
                destroyable := fun impossible => by cases impossible }

private theorem orderly_delete_iff (owned : Owned holdings)
    (orderly : Orderly holdings) :
    Orderly (holdings.next .delete) ↔ Legal holdings .delete := by
  constructor
  · intro after
    exact (abandon_destroyed_iff owned orderly).mp after.abandoned
  · intro absent
    have loops := orderly.loops
    have widgets := orderly.widgets
    rw [absent] at loops widgets
    exact
      { used := orderly.used
        checked := orderly.checked
        returned := orderly.returned
        abandoned := (abandon_destroyed_iff owned orderly).mpr absent
        loops
        widgets
        destroyable := fun impossible => by cases impossible }

theorem orderly_next_iff (owned : Owned holdings) (orderly : Orderly holdings)
    (callback : Callback) :
    Orderly (holdings.next callback) ↔ Legal holdings callback := by
  cases callback with
  | onCreate startup data observer =>
      exact orderly_onCreate_iff owned orderly startup data observer
  | lifecycle call => exact orderly_lifecycle_iff orderly call
  | onDestroy destroyRound => exact orderly_onDestroy_iff owned orderly _
  | delete => exact orderly_delete_iff owned orderly

theorem owned_next (owned : Owned holdings) (orderly : Orderly holdings)
    {callback : Callback} (legal : Legal holdings callback) :
    Owned (holdings.next callback) := by
  cases callback with
  | onCreate startup data observer =>
      obtain ⟨app, calls, context, created⟩ :=
        onCreate_creates holdings.activity startup data observer
      simp only [Holdings.next, created]
      constructor
      · intro impossible
        cases impossible
      · rintro other ⟨rfl⟩
        exact ⟨rfl, context⟩
  | lifecycle call =>
      have kept := holdings.activity.next_shellApp call
      constructor
      · intro absent
        exact owned.unshared (kept ▸ absent)
      · intro app isApp
        exact owned.shared app (kept ▸ isApp)
  | onDestroy destroyRound =>
      cases isDestroying : holdings.activity.isDestroying with
      | true =>
          simp only [Holdings.next, isDestroying, if_true]
          exact owned
      | false =>
          obtain ⟨app, isApp, created⟩ :=
            legal.resolve_left (by simp [isDestroying])
          obtain ⟨calls, _, destroyed⟩ := onDestroy_destroys destroyRound
            isDestroying isApp (owned.shared app isApp).2 created
          simp only [Holdings.next, isDestroying, isApp, destroyed,
            orderly.checked]
          constructor
          · exact fun _ => rfl
          · intro other impossible
            cases impossible
  | delete =>
      constructor
      · intro _
        rfl
      · intro app impossible
        cases impossible

end Step

/-- An orderly activity, without a shell once it was deleted. -/
structure Standing (holdings : Holdings) : Prop where
  owned : Owned holdings
  orderly : Orderly holdings
  deleted : holdings.deleted = true → holdings.activity.shellApp = none

private theorem standing_start (packageName : List Char) :
    Standing (lives packageName).start where
  owned := ⟨fun _ => rfl, fun app impossible => by cases impossible⟩
  orderly :=
    { used := rfl
      checked := rfl
      returned := rfl
      abandoned := fun shared impossible => by cases impossible
      loops := rfl
      widgets := rfl
      destroyable := fun impossible => by cases impossible }
  deleted := fun impossible => by cases impossible

private theorem standing_next (packageName : List Char) (holdings : Holdings)
    (callback : Callback) (standing : Standing holdings)
    (isEnabled : (lives packageName).enabled holdings callback)
    (legal : Legal holdings callback) : Standing (holdings.next callback) := by
  obtain ⟨owned, orderly, _⟩ := standing
  refine
    { owned := owned_next owned orderly legal
      orderly := (orderly_next_iff owned orderly callback).mpr legal
      deleted := ?_ }
  have before : holdings.deleted = false := isEnabled.1
  cases callback with
  | delete => exact fun _ => rfl
  | onDestroy destroyRound =>
      have kept : (holdings.next (.onDestroy destroyRound)).deleted =
          holdings.deleted := by
        simp only [Holdings.next]
        repeat' split
        all_goals rfl
      rw [kept, before]
      exact fun impossible => by cases impossible
  | _ =>
      simp only [Holdings.next, before]
      exact fun impossible => by cases impossible

/-- In every order of callbacks, with every outcome of the start-ups: the
activity is orderly after each of them if and only if each is legal where it
comes.  An orderly activity that was deleted has given everything back: no
message loop and no use of the GUI is left, and every shell is destroyed. -/
theorem lives_orderly_iff (packageName : List Char)
    {callbacks : List Callback}
    (run : (lives packageName).Run (lives packageName).start callbacks) :
    ((lives packageName).AllSteps
        (fun holdings callback => Orderly (holdings.next callback))
        (lives packageName).start callbacks ↔
      (lives packageName).AllSteps Legal (lives packageName).start
        callbacks) ∧
    ((lives packageName).AllSteps Legal (lives packageName).start callbacks →
      let holdings := (lives packageName).after (lives packageName).start
        callbacks
      holdings.deleted = true →
        balance messageLoops holdings.activity.calls = 0 ∧
        balance guiWidgets holdings.activity.calls = 0 ∧
        holdings.shared = none ∧
        ∀ shared ∈ holdings.abandoned, shared.destroyed = 1) := by
  constructor
  · apply run.allSteps_congr (standing_next packageName) _
      (standing_start packageName)
    intro holdings callback standing _
    exact orderly_next_iff standing.owned standing.orderly callback
  · intro legal holdings deleted
    have standing : Standing holdings :=
      (run.runWhen legal).invariant (standing_next packageName)
        (standing_start packageName)
    have absent := standing.deleted deleted
    have loops := standing.orderly.loops
    have widgets := standing.orderly.widgets
    rw [absent] at loops widgets
    exact ⟨loops, widgets, standing.owned.unshared absent,
      standing.orderly.abandoned⟩

/-- An activity that is created again after its destruction: `is_destroying_`
is still set, and the second shell would never be released. -/
def createdAgain : List Callback :=
  [.onCreate (startupWith (some 2) true) [] 0, .onDestroy (Fin.last 199),
    .onCreate (startupWith (some 2) true) [] 0]

/-- A life in which every callback is legal. -/
def wholeLife : List Callback :=
  [.onCreate (startupWith (some 2) true) [] 0, .lifecycle (.onResume []),
    .lifecycle .onStop, .onDestroy (Fin.last 199), .delete]

theorem lives_orderly_iff_createdAgain :
    balance guiWidgets ((lives "com.a".toList).after
        (lives "com.a".toList).start wholeLife).activity.calls = 0 ∧
      ¬(lives "com.a".toList).AllSteps
        (fun holdings callback => Orderly (holdings.next callback))
        (lives "com.a".toList).start createdAgain := by
  constructor
  · have run : (lives "com.a".toList).Run (lives "com.a".toList).start
        wholeLife :=
      ⟨⟨rfl, rfl, rfl⟩, ⟨rfl, rfl, rfl⟩, ⟨rfl, rfl, rfl⟩, ⟨rfl, rfl, rfl⟩,
        ⟨rfl, rfl, rfl⟩, trivial⟩
    have legal : (lives "com.a".toList).AllSteps Legal
        (lives "com.a".toList).start wholeLife :=
      ⟨⟨rfl, rfl, fun _ => rfl⟩, fun _ => rfl, fun _ => rfl,
        .inr ⟨_, rfl, Option.some_ne_none 2⟩, rfl, trivial⟩
    exact ((lives_orderly_iff "com.a".toList run).2 legal rfl).2.1
  · have run : (lives "com.a".toList).Run (lives "com.a".toList).start
        createdAgain :=
      ⟨⟨rfl, rfl, rfl⟩, ⟨rfl, rfl, rfl⟩, ⟨rfl, rfl, rfl⟩, trivial⟩
    intro orderly
    obtain ⟨_, _, again, _⟩ :=
      (lives_orderly_iff "com.a".toList run).1.mp orderly
    cases again.2.1

end QuickApp.Shell.Startup
