import QuickApp.Shell.Rounds

/-!
# Show and hide

`onStop` hides the application.  On the way back both `onRestart` and
`onResume` show it, the second unless it routes to a new intent, and after a
pause alone `onResume` shows an application that was not hidden.
-/

namespace QuickApp.Shell.Rounds

open Startup (ActivityCall QuickActivity Method running_onCreate)

def switch : ActivityCall → Option ApplicationFunction
  | .application ⟨.show, _⟩ => some .show
  | .application ⟨.hide, _⟩ => some .hide
  | _ => none

/-- The calls of `QApplicationShow` and `QApplicationHide`, in order. -/
def switches (calls : List ActivityCall) : List ApplicationFunction :=
  calls.filterMap switch

/-- An application is visible until it is hidden. -/
def visible (calls : List ActivityCall) : Bool :=
  (switches calls).getLast? != some .hide

theorem switches_append (first second : List ActivityCall) :
    switches (first ++ second) = switches first ++ switches second :=
  List.filterMap_append

theorem visible_of_silent {first second : List ActivityCall}
    (silent : switches second = []) :
    visible (first ++ second) = visible first := by
  rw [visible, switches_append, silent, List.append_nil, visible]

theorem visible_of_switch {first second : List ActivityCall}
    {function : ApplicationFunction} (switched : switches second = [function]) :
    visible (first ++ second) = (function != .hide) := by
  rw [visible, switches_append, switched, List.getLast?_concat]
  cases function with
  | _ => rfl

/-- The calls a callback makes. -/
def State.made (state : State) (callback : Callback) : List ActivityCall :=
  state.activity.methodCalls (state.method callback)

/-- A hidden application is shown, a visible one hidden, and after an
`onResume` it is visible. -/
structure Alternates (state : State) (callback : Callback) : Prop where
  shows : .show ∈ switches (state.made callback) →
    visible state.activity.calls = false
  hides : .hide ∈ switches (state.made callback) →
    visible state.activity.calls = true
  resumed : callback = .onResume →
    visible (state.next callback).activity.calls = true

/-- Every `onResume` but the first finds a new intent. -/
def ResumesNew (state : State) : Callback → Prop
  | .onResume => state.activity.isStarted = true →
      state.activity.isNewIntent = true
  | _ => True

/-- The application exists, and it is hidden between `onStop` and
`onRestart`. -/
structure Shown (state : State) : Prop where
  application : ∃ app application, state.activity.shellApp = some app ∧
    app.quickApp = some application
  visibility : visible state.activity.calls = (state.phase != .stopped)

section Steps

variable {state : State} {callback : Callback}

theorem calls_next (state : State) (callback : Callback) :
    (state.next callback).activity.calls =
      state.activity.calls ++ state.made callback :=
  QuickActivity.next_calls _ _

/-- What a method switches. -/
def switchOf : Option Method → List ApplicationFunction
  | some .show => [.show]
  | some .hide => [.hide]
  | _ => []

theorem switches_made (shown : Shown state) (callback : Callback) :
    switches (state.made callback) = switchOf (state.method callback) := by
  obtain ⟨app, application, isApp, isApplication⟩ := shown.application
  rw [State.made]
  cases state.method callback with
  | none =>
      rw [QuickActivity.methodCalls_none]
      rfl
  | some method =>
      simp only [QuickActivity.methodCalls, isApp]
      cases method with
      | «show» =>
          simp only [Method.run, ShellApp.show, ShellApp.ifCreated,
            isApplication]
          rfl
      | hide =>
          simp only [Method.run, ShellApp.hide, ShellApp.ifCreated,
            isApplication]
          rfl
      | route url =>
          simp only [Method.run, ShellApp.route, ShellApp.ifCreated,
            isApplication]
          rfl
      | backpress =>
          simp only [Method.run, ShellApp.backpress, ShellApp.ifCreated,
            isApplication]
          rfl

theorem visible_next (shown : Shown state) (callback : Callback) :
    visible (state.next callback).activity.calls =
      match state.method callback with
      | some .show => true
      | some .hide => false
      | _ => visible state.activity.calls := by
  have made := switches_made shown callback
  rw [calls_next]
  cases isMethod : state.method callback with
  | none =>
      rw [isMethod] at made
      exact visible_of_silent made
  | some method =>
      rw [isMethod] at made
      cases method with
      | «show» => exact visible_of_switch made
      | hide => exact visible_of_switch made
      | route url => exact visible_of_silent made
      | backpress => exact visible_of_silent made

private theorem alternates_of_silent
    (silent : switches (state.made callback) = [])
    (resumed : callback = .onResume →
      visible (state.next callback).activity.calls = true) :
    Alternates state callback := by
  constructor
  · rw [silent]
    intro member
    cases member
  · rw [silent]
    intro member
    cases member
  · exact resumed

private theorem alternates_onResume_iff (shown : Shown state)
    (canCome : (state.phase.after .onResume).isSome) :
    Alternates state .onResume ↔ ResumesNew state .onResume := by
  have before : visible state.activity.calls = true :=
    shown.visibility.trans (Phase.stopped_before canCome)
  have made := switches_made shown .onResume
  have after := visible_next shown .onResume
  rw [State.method_onResume] at made after
  cases started : state.activity.isStarted with
  | false =>
      rw [if_pos started] at made after
      constructor
      · intro _ isStarted
        rw [started] at isStarted
        cases isStarted
      · intro _
        exact alternates_of_silent made fun _ => after.trans before
  | true =>
      rw [if_neg (by simp [started])] at made after
      cases pending : state.activity.isNewIntent with
      | true =>
          rw [if_pos pending] at made after
          constructor
          · intro _ _
            exact pending
          · intro _
            exact alternates_of_silent made fun _ => after.trans before
      | false =>
          rw [if_neg (by simp [pending])] at made
          constructor
          · intro alternates
            have hidden := alternates.shows (by rw [made]; exact .head _)
            rw [before] at hidden
            cases hidden
          · intro resumes
            have isPending := resumes started
            rw [pending] at isPending
            cases isPending

theorem alternates_iff (shown : Shown state)
    (canCome : (state.phase.after callback).isSome) :
    Alternates state callback ↔ ResumesNew state callback := by
  have before := shown.visibility.trans (Phase.stopped_before canCome)
  have made := switches_made shown callback
  cases callback with
  | onResume => exact alternates_onResume_iff shown canCome
  | onStop =>
      refine iff_of_true ⟨?_, fun _ => before, by simp⟩ trivial
      rw [made]
      intro member
      cases List.mem_singleton.mp member
  | onRestart =>
      refine iff_of_true ⟨fun _ => before, ?_, by simp⟩ trivial
      rw [made]
      intro member
      cases List.mem_singleton.mp member
  | onStart => exact iff_of_true (alternates_of_silent made (by simp)) trivial
  | onPause => exact iff_of_true (alternates_of_silent made (by simp)) trivial
  | onNewIntent data =>
      exact iff_of_true (alternates_of_silent made (by simp)) trivial

theorem shown_next (shown : Shown state)
    (canCome : (state.phase.after callback).isSome)
    (resumes : ResumesNew state callback) :
    Shown (state.next callback) := by
  have before := shown.visibility.trans (Phase.stopped_before canCome)
  have after := visible_next shown callback
  have later := Phase.stopped_after canCome
  constructor
  · rw [State.activity_next, QuickActivity.next_shellApp]
    exact shown.application
  · rw [State.phase_next, later]
    cases callback with
    | onResume =>
        exact ((alternates_iff shown canCome).mpr resumes).resumed rfl
    | onStop => exact after
    | onRestart => exact after
    | onStart => exact after.trans before
    | onPause => exact after.trans before
    | onNewIntent data => exact after.trans before

end Steps

/-- What a callback switches when every `onResume` but the first finds a new
intent. -/
def effect : Callback → List ApplicationFunction
  | .onStop => [.hide]
  | .onRestart => [.show]
  | _ => []

def isLifecycle : Callback → Bool
  | .onNewIntent _ => false
  | _ => true

/-- A round in which the application goes to the background and comes back. -/
def backgroundRound : List Callback :=
  [.onPause, .onStop, .onRestart, .onStart, .onResume]

section Rounds

variable {launch : Launch} {state : State}

theorem switches_next {callback : Callback} (shown : Shown state)
    (resumes : ResumesNew state callback) :
    switches (state.next callback).activity.calls =
      switches state.activity.calls ++ effect callback := by
  have made := switches_made shown callback
  rw [calls_next, switches_append, made]
  cases callback with
  | onResume =>
      rw [State.method_onResume]
      cases started : state.activity.isStarted with
      | false => rfl
      | true =>
          rw [if_neg (by simp), if_pos (resumes started)]
          rfl
  | _ => rfl

theorem switches_after {callbacks : List Callback} (shown : Shown state)
    (run : (system launch).RunWhen ResumesNew state callbacks) :
    switches ((system launch).after state callbacks).activity.calls =
      switches state.activity.calls ++ callbacks.flatMap effect := by
  induction callbacks generalizing state with
  | nil => exact (List.append_nil _).symm
  | cons callback callbacks induction =>
      obtain ⟨⟨isEnabled, resumes⟩, rest⟩ := run
      have later := induction (shown_next shown isEnabled.2 resumes) rest
      rw [System.after_cons, List.flatMap_cons, ← List.append_assoc]
      rw [← switches_next shown resumes]
      exact later

theorem flatMap_effect_filter (callbacks : List Callback) :
    (callbacks.filter isLifecycle).flatMap effect =
      callbacks.flatMap effect := by
  induction callbacks with
  | nil => rfl
  | cons callback callbacks induction =>
      cases callback with
      | onNewIntent data => exact induction
      | _ => exact congrArg (_ ++ ·) induction

theorem switches_backgroundRound {round : List Callback}
    (isRound : round.filter isLifecycle = backgroundRound)
    (shown : Shown state)
    (run : (system launch).RunWhen ResumesNew state round) :
    switches ((system launch).after state round).activity.calls =
      switches state.activity.calls ++ [.hide, .show] := by
  rw [switches_after shown run, ← flatMap_effect_filter, isRound]
  rfl

/-- Without an `onResume` the flags collect the new intents. -/
theorem flags_after (launch : Launch) (state : State)
    {callbacks : List Callback} (noResume : .onResume ∉ callbacks) :
    ((system launch).after state callbacks).activity.isStarted =
        state.activity.isStarted ∧
      (((system launch).after state callbacks).activity.isNewIntent = true ↔
        state.activity.isNewIntent = true ∨
          ∃ data, .onNewIntent data ∈ callbacks) := by
  induction callbacks generalizing state with
  | nil => simp
  | cons callback callbacks induction =>
      obtain ⟨other, rest⟩ := not_or.mp (mt List.mem_cons.mpr noResume)
      obtain ⟨started, pending⟩ := induction (state.next callback) rest
      rw [System.after_cons]
      cases callback with
      | onResume => exact (other rfl).elim
      | onNewIntent data =>
          refine ⟨started, pending.trans (iff_of_true (.inl rfl) (.inr ?_))⟩
          exact ⟨data, List.mem_cons_self⟩
      | _ =>
          refine ⟨started, pending.trans (or_congr Iff.rfl ?_)⟩
          simp

private theorem isStarted_onResume (state : State) :
    (state.next .onResume).activity.isStarted = true := by
  rw [State.activity_next, QuickActivity.next_isStarted]
  rfl

theorem isStarted_after (launch : Launch) (state : State)
    (callbacks : List Callback) :
    ((system launch).after state callbacks).activity.isStarted = true ↔
      state.activity.isStarted = true ∨ .onResume ∈ callbacks := by
  induction callbacks generalizing state with
  | nil => simp
  | cons callback callbacks induction =>
      rw [System.after_cons, List.mem_cons]
      apply (induction (state.next callback)).trans
      cases callback with
      | onResume =>
          exact iff_of_true (.inl (isStarted_onResume state))
            (.inr (.inl rfl))
      | _ =>
          apply or_congr Iff.rfl
          simp

/-- The condition by callbacks: a new intent has come since the last
`onResume`, or, when that was the first one, before it. -/
theorem resumesNew_iff {before since : List Callback}
    (noResume : .onResume ∉ since) :
    ResumesNew ((system launch).after launch.created
        (before ++ .onResume :: since)) .onResume ↔
      (∃ data, .onNewIntent data ∈ since) ∨
        .onResume ∉ before ∧ ∃ data, .onNewIntent data ∈ before := by
  have stillStarted := isStarted_after launch launch.created before
  obtain ⟨started, pending⟩ := flags_after launch
    (((system launch).after launch.created before).next .onResume) noResume
  rw [ResumesNew, System.after_append, System.after_cons]
  have isStarted := isStarted_onResume
    ((system launch).after launch.created before)
  constructor
  · intro resumes
    rcases pending.mp (resumes (started.trans isStarted)) with waits | fresh
    · right
      simp only [State.activity_next, Callback.lifecycle,
        QuickActivity.next_isNewIntent, QuickActivity.newIntentAfter,
        Bool.and_eq_true, Bool.not_eq_true'] at waits
      have first : .onResume ∉ before := by
        intro earlier
        rw [stillStarted.mpr (.inr earlier)] at waits
        cases waits.2
      refine ⟨first, ?_⟩
      rcases (flags_after _ _ first).2.mp waits.1 with impossible | early
      · cases impossible
      · exact early
    · exact .inl fresh
  · rintro new _
    apply pending.mpr
    rcases new with fresh | ⟨first, early⟩
    · exact .inr fresh
    · left
      obtain ⟨unstarted, collected⟩ :=
        flags_after launch launch.created first
      have waits := collected.mpr (.inr early)
      simp only [State.activity_next, Callback.lifecycle,
        QuickActivity.next_isNewIntent, QuickActivity.newIntentAfter, waits,
        unstarted]
      rfl

theorem shown_created
    (isCreated : launch.startup.framework.application ≠ none)
    (returned : launch.Returned launch.created.activity) :
    Shown launch.created := by
  have running := running_onCreate launch.startup launch.packageName
    launch.data launch.observer returned.thread
  obtain ⟨app, isApp, intact⟩ := running.app
  obtain ⟨application, isApplication⟩ := Option.ne_none_iff_exists'.mp isCreated
  constructor
  · exact ⟨app, application, isApp, intact.application.trans isApplication⟩
  · have silent : switches launch.created.activity.calls = [] := by
      simp only [Launch.created, QuickActivity.onCreate, switches,
        List.nil_append, List.filterMap_cons, List.filterMap_map]
      exact List.filterMap_eq_nil_iff.mpr fun _ _ => rfl
    rw [visible, silent]
    rfl

/-- In every run of an application that exists: show and hide alternate if and
only if every `onResume` but the first finds a new intent; and then each
background round hides once and shows once. -/
theorem show_hide_alternate_iff (launch : Launch)
    (isCreated : launch.startup.framework.application ≠ none)
    (callbacks : List Callback)
    (run : (system launch).Run launch.created callbacks) :
    ((system launch).AllSteps Alternates launch.created callbacks ↔
        (system launch).AllSteps ResumesNew launch.created callbacks) ∧
      ((system launch).AllSteps ResumesNew launch.created callbacks →
        ∀ front round back, callbacks = front ++ round ++ back →
          round.filter isLifecycle = backgroundRound →
            switches ((system launch).after launch.created
                (front ++ round)).activity.calls =
              switches ((system launch).after launch.created
                front).activity.calls ++ [.hide, .show]) := by
  have kept : ∀ state callback, Shown state →
      (system launch).enabled state callback → ResumesNew state callback →
        Shown (state.next callback) := by
    intro state callback shown isEnabled resumes
    exact shown_next shown isEnabled.2 resumes
  have agree : ∀ state callback, Shown state →
      (system launch).enabled state callback →
        (Alternates state callback ↔ ResumesNew state callback) := by
    intro state callback shown isEnabled
    exact alternates_iff shown isEnabled.2
  cases callbacks with
  | nil =>
      refine ⟨Iff.rfl, ?_⟩
      intro _ front round back split isRound
      obtain ⟨both, _⟩ := List.append_eq_nil_iff.mp split.symm
      obtain ⟨_, rfl⟩ := List.append_eq_nil_iff.mp both
      cases isRound
  | cons callback callbacks =>
      have initial := shown_created isCreated run.1.1
      refine ⟨run.allSteps_congr kept agree initial, ?_⟩
      intro resumes front round back split isRound
      have whole := run.runWhen resumes
      rw [split] at whole
      obtain ⟨both, _⟩ := (System.allSteps_append _ _ _ _ _).mp whole
      obtain ⟨before, during⟩ := (System.allSteps_append _ _ _ _ _).mp both
      have shown : Shown ((system launch).after launch.created front) :=
        System.RunWhen.invariant kept initial before
      rw [System.after_append]
      exact switches_backgroundRound isRound shown during

end Rounds

/-- A background round with a new intent in it. -/
theorem show_hide_alternate_round :
    (system plainLaunch).AllSteps Alternates plainLaunch.created
      [.onStart, .onResume, .onPause, .onStop, .onNewIntent [], .onRestart,
        .onStart, .onResume] := by
  have returned : ∀ {activity : Startup.QuickActivity},
      activity.waits = false → plainLaunch.Returned activity :=
    fun waits => ⟨plainLaunch_constructed, waits⟩
  have run : (system plainLaunch).Run plainLaunch.created
      [.onStart, .onResume, .onPause, .onStop, .onNewIntent [], .onRestart,
        .onStart, .onResume] :=
    ⟨⟨returned rfl, rfl⟩, ⟨returned rfl, rfl⟩, ⟨returned rfl, rfl⟩,
      ⟨returned rfl, rfl⟩, ⟨returned rfl, rfl⟩, ⟨returned rfl, rfl⟩,
      ⟨returned rfl, rfl⟩, ⟨returned rfl, rfl⟩, trivial⟩
  apply (show_hide_alternate_iff plainLaunch (Option.some_ne_none 2) _
    run).1.mpr
  exact ⟨trivial, (fun started => by cases started), trivial, trivial, trivial,
    trivial, trivial, (fun _ => rfl), trivial⟩

/-- Without one, a pause shows what is visible, and the way back from the
background shows twice. -/
theorem show_while_visible :
    ¬(system plainLaunch).AllSteps Alternates plainLaunch.created
        [.onStart, .onResume, .onPause, .onResume] ∧
      switches ((system plainLaunch).after plainLaunch.created
        [.onStart, .onResume, .onPause, .onStop, .onRestart, .onStart,
          .onResume]).activity.calls = [.hide, .show, .show] := by
  constructor
  · rintro ⟨_, _, _, fourth, _⟩
    have hidden := fourth.shows (.head _)
    cases hidden
  · rfl

end QuickApp.Shell.Rounds
