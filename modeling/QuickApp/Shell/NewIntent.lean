import QuickApp.Shell.Rounds

/-!
# New intents at a resume

`onNewIntent` leaves a mark, and the next `onResume` routes the application to
the intent and takes the mark away.  The first `onResume` only notes that the
activity has started: it looks at no mark and takes none away.
-/

namespace QuickApp.Shell.Rounds

open Startup (Lifecycle QuickActivity)

/-- When an `onResume` returns, the application has been handed the address of
the last intent; without a new one since the last `onResume` nothing is
routed. -/
structure Honoured (state : State) (callback : Callback) : Prop where
  latest : callback = .onResume →
    handedUrl (state.next callback).activity.calls =
      (state.next callback).wantedUrl
  idle : callback = .onResume → state.fresh = false →
    ∀ url, state.method callback ≠ some (.route url)

/-- New intents come after the first `onResume`. -/
def IntentsAfterStart (state : State) : Callback → Prop
  | .onNewIntent _ => state.activity.isStarted = true
  | _ => True

/-- The mark tells whether an intent waits, and without one the application
has the address of the last. -/
structure Marked (state : State) : Prop where
  present : state.activity.shellApp ≠ none
  mark : state.activity.isNewIntent = state.fresh
  first : state.activity.isStarted = false → state.fresh = false
  handed : state.fresh = false →
    handedUrl state.activity.calls = state.wantedUrl
  wanted : state.fresh = true →
    state.wantedUrl = some (state.activity.intentUrl state.intent)

section Steps

variable {state : State} {callback : Callback}

private theorem Marked.of_kept (marked : Marked state)
    (flags : ((state.next callback).activity.isNewIntent =
        state.activity.isNewIntent) ∧
      (state.next callback).activity.isStarted = state.activity.isStarted)
    (kept : (state.next callback).fresh = state.fresh ∧
      (state.next callback).intent = state.intent ∧
      (state.next callback).wantedUrl = state.wantedUrl)
    (silent : ∀ url, state.method callback ≠ some (.route url)) :
    Marked (state.next callback) := by
  obtain ⟨pending, started⟩ := flags
  obtain ⟨fresh, intent, wanted⟩ := kept
  have same : handedUrl (state.next callback).activity.calls =
      handedUrl state.activity.calls := by
    rw [handedUrl_next marked.present]
    split
    · rename_i url routes
      exact (silent url routes).elim
    · rfl
  constructor
  · rw [State.activity_next, QuickActivity.next_shellApp]
    exact marked.present
  · rw [pending, fresh]
    exact marked.mark
  · rw [started, fresh]
    exact marked.first
  · rw [fresh, same, wanted]
    exact marked.handed
  · rw [fresh, wanted, State.activity_next, QuickActivity.intentUrl_next,
      intent]
    exact marked.wanted

theorem honoured_of_marked (marked : Marked state) :
    Honoured state callback := by
  have routed := state.method_onResume
  constructor
  · rintro rfl
    have wanted : (state.next .onResume).wantedUrl = state.wantedUrl := rfl
    rw [handedUrl_next marked.present, routed, wanted]
    cases started : state.activity.isStarted with
    | false => exact marked.handed (marked.first started)
    | true =>
        cases pending : state.activity.isNewIntent with
        | false => exact marked.handed (marked.mark.symm.trans pending)
        | true => exact (marked.wanted (marked.mark.symm.trans pending)).symm
  · rintro rfl stale url
    rw [routed, marked.mark, stale]
    split
    · simp
    · simp

theorem marked_next (marked : Marked state)
    (after : IntentsAfterStart state callback) :
    Marked (state.next callback) := by
  have present : (state.next callback).activity.shellApp ≠ none := by
    rw [State.activity_next, QuickActivity.next_shellApp]
    exact marked.present
  cases callback with
  | onResume =>
      have honoured : Honoured state .onResume := honoured_of_marked marked
      constructor
      · exact present
      · simp only [State.next, Callback.lifecycle,
          QuickActivity.next_isNewIntent,
          QuickActivity.newIntentAfter]
        cases started : state.activity.isStarted with
        | false =>
            rw [marked.mark, marked.first started]
            rfl
        | true => simp
      · intro _
        rfl
      · intro _
        exact honoured.latest rfl
      · intro fresh
        cases fresh
  | onNewIntent data =>
      constructor
      · exact present
      · rfl
      · intro notStarted
        have started : state.activity.isStarted = true := after
        simp [State.next, Callback.lifecycle,
          QuickActivity.startedAfter, started] at notStarted
      · intro stale
        cases stale
      · intro _
        exact congrArg some (QuickActivity.intentUrl_next _ _ _).symm
  | _ =>
      apply marked.of_kept ⟨rfl, rfl⟩ ⟨rfl, rfl, rfl⟩
      intro url routes
      cases routes

/-- Before the first `onResume` the activity has at most been started. -/
def StartsFirst (state : State) : Prop :=
  state.activity.isStarted = false →
    state.phase = .created ∨ state.phase = .started

private theorem notStarted_before
    (notStarted : (state.next callback).activity.isStarted = false) :
    state.activity.isStarted = false ∧ callback ≠ .onResume := by
  rw [State.activity_next, QuickActivity.next_isStarted]
    at notStarted
  cases callback with
  | onResume => cases notStarted
  | _ => exact ⟨notStarted, by simp⟩

theorem startsFirst_next (startsFirst : StartsFirst state)
    (canCome : (state.phase.after callback).isSome) :
    StartsFirst (state.next callback) := by
  intro notStarted
  obtain ⟨before, notResume⟩ := notStarted_before notStarted
  rcases startsFirst before with isCreated | isStarted
  · rw [isCreated] at canCome
    cases callback with
    | onStart =>
        right
        rw [State.phase_next, isCreated]
        rfl
    | onNewIntent data =>
        left
        rw [State.phase_next, isCreated]
        rfl
    | _ => cases canCome
  · rw [isStarted] at canCome
    cases callback with
    | onResume => exact absurd rfl notResume
    | onNewIntent data =>
        right
        rw [State.phase_next, isStarted]
        rfl
    | _ => cases canCome

end Steps

section Runs

variable (launch : Launch)

/-- An intent that waits for the first `onResume` is routed at the second,
when nothing has come since. -/
private theorem not_honoured_of_started {state : State}
    (returned : launch.Returned state.activity)
    (isStarted : state.phase = .started)
    (notResumed : state.activity.isStarted = false)
    (pending : state.activity.isNewIntent = true) :
    (system launch).Run state [.onResume, .onPause, .onResume] ∧
      ¬(system launch).AllSteps Honoured state
        [.onResume, .onPause, .onResume] := by
  constructor
  · have kept : ∀ callback, launch.Returned
        (state.activity.next callback) := by
      intro callback
      rw [Launch.Returned, QuickActivity.next_waits]
      exact returned
    have twice : ∀ first second, launch.Returned
        ((state.activity.next first).next second) := by
      intro first second
      rw [Launch.Returned, QuickActivity.next_waits]
      exact kept first
    refine ⟨⟨returned, ?_⟩, ⟨kept _, ?_⟩, ⟨twice _ _, ?_⟩, trivial⟩
    · rw [isStarted]
      rfl
    · simp [system, isStarted, Phase.after]
    · simp [system, isStarted, Phase.after]
  · rintro ⟨_, _, third, _⟩
    apply third.idle rfl rfl
    rw [State.method_onResume]
    simp [system, Callback.lifecycle, QuickActivity.startedAfter,
      QuickActivity.newIntentAfter, notResumed, pending]
    rfl

/-- Before the first `onResume` a waiting intent can always get there. -/
private theorem not_honoured_of_waiting (state : State)
    (returned : launch.Returned state.activity)
    (startsFirst : StartsFirst state)
    (notResumed : state.activity.isStarted = false)
    (pending : state.activity.isNewIntent = true) :
    ∃ rest, (system launch).Run state rest ∧
      ¬(system launch).AllSteps Honoured state rest := by
  rcases startsFirst notResumed with isCreated | isStarted
  · have started : (state.next .onStart).phase = .started := by
      rw [State.phase_next, isCreated]
      rfl
    have later : (system launch).Run (state.next .onStart)
          [.onResume, .onPause, .onResume] ∧
        ¬(system launch).AllSteps Honoured (state.next .onStart)
          [.onResume, .onPause, .onResume] :=
      not_honoured_of_started launch returned started notResumed pending
    refine ⟨[.onStart, .onResume, .onPause, .onResume],
      ⟨⟨returned, ?_⟩, later.1⟩, ?_⟩
    · rw [isCreated]
      rfl
    · intro all
      exact later.2 all.2
  · exact ⟨_, not_honoured_of_started launch returned isStarted notResumed
      pending⟩

theorem marked_created (returned : launch.Returned launch.created.activity) :
    Marked launch.created := by
  constructor
  · intro missing
    cases missing
  · rfl
  · intro _
    rfl
  · intro _
    exact handedUrl_created returned
  · intro fresh
    cases fresh

/-- When every new intent comes after the first `onResume`, each `onResume`
honours the last one; and a run in which one comes before can be continued to
an `onResume` that does not. -/
theorem onResume_honoured :
    (∀ callbacks,
      (system launch).RunWhen IntentsAfterStart launch.created callbacks →
        (system launch).AllSteps Honoured launch.created callbacks) ∧
      ∀ front data,
        (system launch).Run launch.created (front ++ [.onNewIntent data]) →
          ¬IntentsAfterStart ((system launch).after launch.created front)
            (.onNewIntent data) →
            ∃ rest,
              (system launch).Run launch.created
                  (front ++ .onNewIntent data :: rest) ∧
                ¬(system launch).AllSteps Honoured launch.created
                  (front ++ .onNewIntent data :: rest) := by
  constructor
  · intro callbacks run
    have kept : ∀ state callback, Marked state →
        (system launch).enabled state callback →
          IntentsAfterStart state callback →
            Marked (state.next callback) := by
      intro state callback marked _ after
      exact marked_next marked after
    have step : ∀ state callback, Marked state →
        (system launch).enabled state callback →
          IntentsAfterStart state callback → Honoured state callback := by
      intro state callback marked _ _
      exact honoured_of_marked marked
    cases callbacks with
    | nil => trivial
    | cons callback callbacks =>
        exact run.allSteps kept step (marked_created launch run.1.1.1)
  · intro front data run early
    have kept : ∀ state callback, StartsFirst state →
        (system launch).enabled state callback →
          StartsFirst (state.next callback) := by
      intro state callback startsFirst isEnabled
      exact startsFirst_next startsFirst isEnabled.2
    have initial : StartsFirst launch.created := by
      intro _
      exact .inl rfl
    obtain ⟨frontRun, isEnabled, _⟩ := System.run_append.mp run
    have startsFirst := frontRun.invariant kept initial
    have notStarted := Bool.eq_false_iff.mpr early
    have later := kept _ _ startsFirst isEnabled
    obtain ⟨rest, restRun, broken⟩ := not_honoured_of_waiting launch
      (((system launch).after launch.created front).next
        (.onNewIntent data)) isEnabled.1 later notStarted rfl
    refine ⟨rest, System.run_append.mpr ⟨frontRun, isEnabled, restRun⟩, ?_⟩
    intro all
    exact broken ((System.allSteps_append _ _ _ _ _).mp all).2.2

end Runs

/-- An intent that comes while the activity is paused is routed at the next
`onResume`, and the one after it routes nothing. -/
theorem onResume_honoured_paused :
    let run := [.onStart, .onResume, .onPause, .onNewIntent "/x".toList]
    handedUrl ((system plainLaunch).after plainLaunch.created
        (run ++ [.onResume])).activity.calls =
      some "hap://app/com.a/x".toList := by
  intro run
  have returned : plainLaunch.Returned plainLaunch.created.activity :=
    ⟨plainLaunch_constructed, rfl⟩
  have kept : (system plainLaunch).RunWhen IntentsAfterStart
      plainLaunch.created (run ++ [.onResume]) :=
    ⟨⟨⟨returned, rfl⟩, trivial⟩, ⟨⟨returned, rfl⟩, trivial⟩,
      ⟨⟨returned, rfl⟩, trivial⟩, ⟨⟨returned, rfl⟩, rfl⟩,
      ⟨⟨returned, rfl⟩, trivial⟩, trivial⟩
  have honoured := (onResume_honoured plainLaunch).1 _ kept
  exact honoured.2.2.2.2.1.latest rfl

/-- A new intent before the first `onResume`: the application keeps the
address of the launch, and the intent is routed a round too late. -/
theorem onResume_misses_early_intent :
    (system plainLaunch).Run plainLaunch.created
        [.onNewIntent "/x".toList, .onStart, .onResume] ∧
      ¬(system plainLaunch).AllSteps Honoured plainLaunch.created
        [.onNewIntent "/x".toList, .onStart, .onResume] := by
  have constructed := plainLaunch_constructed
  have returned : plainLaunch.Returned plainLaunch.created.activity :=
    ⟨constructed, rfl⟩
  constructor
  · exact ⟨⟨returned, rfl⟩, ⟨⟨constructed, rfl⟩, rfl⟩, ⟨⟨constructed, rfl⟩, rfl⟩,
      trivial⟩
  · rintro ⟨_, _, third, _⟩
    have same : handedUrl plainLaunch.created.activity.calls =
        some "hap://app/com.a/x".toList := third.latest rfl
    rw [handedUrl_created returned, plainLaunch_coldUrl] at same
    exact absurd same (by decide)

end QuickApp.Shell.Rounds
