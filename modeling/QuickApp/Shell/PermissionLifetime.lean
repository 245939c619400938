import QuickApp.Shell.App
import QuickApp.Transition

/-!
# The lifetime of the permission manager

`init` registers a callback with the raw pointer of the permission manager,
and every request hands the client a closure with the same pointer.  `stop`
destroys the manager, while `uninit` takes nothing back.  The manager is not
used afterwards exactly when nobody holds the pointer any more at that time:
neither the feature framework, nor the client, nor a call on its way.
-/

namespace QuickApp.Shell.PermissionLifetime

open QuickApp.Permission
  (Platform PermissionManagerImpl ResultCallback FeaturePermissionsHandle
    FeaturePermissionsInfo Client)
open QuickApp.Buffers

/-- A call through the raw pointer that has been made and whose body has not
been run yet. -/
inductive Invocation where
  | query (handle : FeaturePermissionsHandle) (info : FeaturePermissionsInfo)
      (permissionBuf : Buffer Char)
  | result (callback : ResultCallback FeaturePermissionsHandle) (result : Int)

/-- The shell, whether the framework has the callback and the application has
exited, the closures given to the client, those it can still call, the calls
on their way, what the manager called, and the calls whose body ran without a
manager. -/
structure State where
  shell : ShellApp
  registered : Bool
  exited : Bool := false
  callbacks : List (ResultCallback FeaturePermissionsHandle) := []
  held : List Nat := []
  active : List Invocation := []
  calls : List Permission.Call := []
  faults : List Invocation := []

/-- Queries of the application, results of the client, and what ends their
sources; `run` executes the body of a call.  A closure can be called any number
of times until the client discards it. -/
inductive Event where
  | query (handle : FeaturePermissionsHandle) (info : FeaturePermissionsInfo)
      (permissionBuf : Buffer Char)
  | deliver (callback : Nat) (result : Int)
  | discard (callback : Nat)
  | run (invocation : Nat)
  | setClient (client : Option Client)
  | replaceCallback
  | exit
  | stop

namespace State

variable (state : State)

/-- The body of `_feature_permission_query` or of a result closure. -/
def runBody (platform : Platform) (invocation : Invocation) : State :=
  match state.shell.permissionManager with
  | none => { state with faults := invocation :: state.faults }
  | some manager =>
      match invocation with
      | .query handle info permissionBuf =>
          let (calls, given) := manager.featurePermissionQuery platform handle
            info permissionBuf state.callbacks.length
          { state with
            callbacks := state.callbacks ++ given.toList
            held := state.held ++ given.toList.map fun _ =>
              state.callbacks.length
            calls := state.calls ++ calls }
      | .result callback result =>
          { state with
            calls := state.calls ++ manager.deliverResult callback result }

def next (platform : Platform) : Event → State
  | .query handle info permissionBuf =>
      { state with
        active := state.active ++ [.query handle info permissionBuf] }
  | .deliver callback result =>
      match state.callbacks[callback]? with
      | none => state
      | some given =>
          { state with active := state.active ++ [.result given result] }
  | .discard callback => { state with held := state.held.erase callback }
  | .run invocation =>
      match state.active[invocation]? with
      | none => state
      | some body =>
          runBody { state with active := state.active.eraseIdx invocation }
            platform body
  | .setClient client =>
      { state with
        shell :=
          { state.shell with
            permissionManager := state.shell.permissionManager.map
              fun manager => manager.setClient client } }
  | .replaceCallback => { state with registered := false }
  | .exit => { state with exited := true }
  | .stop => { state with shell := state.shell.stop.1 }

/-- The framework calls the registered callback until the application has
exited, the client any closure it has not discarded. -/
def Enabled : Event → Prop
  | .query _ _ _ => state.registered ∧ ¬state.exited
  | .deliver callback _ => callback ∈ state.held
  | .discard callback => callback ∈ state.held
  | .run invocation => invocation < state.active.length
  | .setClient _ => state.shell.permissionManager.isSome
  | _ => True

instance Enabled.decidable : ∀ event, Decidable (state.Enabled event)
  | .query _ _ _ => inferInstanceAs (Decidable (_ ∧ ¬_))
  | .deliver _ _ => inferInstanceAs (Decidable (_ ∈ _))
  | .discard _ => inferInstanceAs (Decidable (_ ∈ _))
  | .run _ => inferInstanceAs (Decidable (_ < _))
  | .setClient _ => inferInstanceAs (Decidable (_ = true))
  | .replaceCallback => .isTrue trivial
  | .exit => .isTrue trivial
  | .stop => .isTrue trivial

end State

/-- The call that gives the framework the callback. -/
def isRegistration : Call → Bool
  | .permission (.setPermissionsCallback _) => true
  | _ => false

/-- The runs after `create`. -/
def system (platform : Platform) (framework : Framework) (url : List Char)
    (asyncMode : Bool) : System State Event where
  start :=
    let (shell, calls) := ShellApp.create (.new url asyncMode) framework
    { shell, registered := calls.any isRegistration }
  enabled := State.Enabled
  next state event := state.next platform event

instance system.decidableEnabled (platform : Platform)
    (framework : Framework) (url : List Char) (asyncMode : Bool)
    (state : State) (event : Event) :
    Decidable
      ((system platform framework url asyncMode).enabled state event) :=
  State.Enabled.decidable state event

/-- Nobody can use the raw pointer of the manager any more. -/
structure Unused (state : State) : Prop where
  framework : state.registered → state.exited
  client : state.held = []
  active : state.active = []

/-- `stop` destroys a manager only when its pointer is not in use. -/
def QuietStop (state : State) : Event → Prop
  | .stop => state.shell.quickApp ≠ none →
      state.shell.permissionManager ≠ none → Unused state
  | _ => True

/-- Without a manager nobody has its pointer, and no body ran without it. -/
structure Safe (state : State) : Prop where
  unused : state.shell.permissionManager = none → Unused state
  faults : state.faults = []

theorem create_registered {framework : Framework} {url : List Char}
    {asyncMode : Bool}
    (missing : (ShellApp.create (.new url asyncMode)
      framework).1.permissionManager = none) :
    (ShellApp.create (.new url asyncMode) framework).2.any isRegistration =
      false := by
  cases configured : framework.quickappPermissionManager with
  | false =>
      cases asyncMode <;>
        simp [ShellApp.create, ShellApp.new, ShellApp.initGUIContext,
          ShellApp.runApplication, ShellApp.initApplication, ShellApp.start,
          configured, isRegistration]
  | true =>
      cases asyncMode <;>
        simp [ShellApp.create, ShellApp.new, ShellApp.initGUIContext,
          ShellApp.runApplication, ShellApp.initApplication,
          configured] at missing

theorem safe_start (platform : Platform) (framework : Framework)
    (url : List Char) (asyncMode : Bool) :
    Safe (system platform framework url asyncMode).start := by
  refine ⟨fun missing => ⟨fun registered => ?_, rfl, rfl⟩, rfl⟩
  have unregistered := create_registered missing
  rw [show (system platform framework url asyncMode).start.registered = false
    from unregistered] at registered
  cases registered

section Steps

variable {platform : Platform} {state : State}

private theorem safe_run (safe : Safe state) {invocation : Nat}
    (isEnabled : invocation < state.active.length) :
    Safe (state.next platform (.run invocation)) := by
  have present : state.shell.permissionManager ≠ none := by
    intro missing
    rw [(safe.unused missing).active] at isEnabled
    cases isEnabled
  obtain ⟨manager, some_⟩ := Option.ne_none_iff_exists'.mp present
  simp only [State.next, List.getElem?_eq_getElem isEnabled, State.runBody,
    some_]
  cases state.active[invocation] with
  | query handle info permissionBuf =>
      exact ⟨fun missing => (present missing).elim, safe.faults⟩
  | result callback result =>
      exact ⟨fun missing => (present missing).elim, safe.faults⟩

theorem safe_next (state : State) (event : Event) (safe : Safe state)
    (isEnabled : state.Enabled event) (quietStop : QuietStop state event) :
    Safe (state.next platform event) := by
  cases event with
  | query handle info permissionBuf =>
      refine ⟨fun missing => ?_, safe.faults⟩
      have exited := (safe.unused missing).framework isEnabled.1
      exact (isEnabled.2 exited).elim
  | deliver callback result =>
      have present : state.shell.permissionManager ≠ none := by
        intro missing
        rw [State.Enabled, (safe.unused missing).client] at isEnabled
        cases isEnabled
      simp only [State.next]
      split
      · exact safe
      · exact ⟨fun missing => (present missing).elim, safe.faults⟩
  | discard callback =>
      refine ⟨fun missing => ?_, safe.faults⟩
      obtain ⟨framework, client, active⟩ := safe.unused missing
      exact ⟨framework, by simp [State.next, client], active⟩
  | run invocation => exact safe_run safe isEnabled
  | setClient client =>
      refine ⟨fun missing => ?_, safe.faults⟩
      have absent : state.shell.permissionManager = none :=
        Option.map_eq_none_iff.mp missing
      simp [State.Enabled, absent] at isEnabled
  | replaceCallback =>
      refine ⟨fun missing => ?_, safe.faults⟩
      obtain ⟨_, client, active⟩ := safe.unused missing
      exact ⟨by simp [State.next], client, active⟩
  | exit =>
      refine ⟨fun missing => ?_, safe.faults⟩
      obtain ⟨_, client, active⟩ := safe.unused missing
      exact ⟨fun _ => rfl, client, active⟩
  | stop =>
      refine ⟨fun missing => ?_, safe.faults⟩
      have unused : Unused state := by
        by_cases absent : state.shell.permissionManager = none
        · exact safe.unused absent
        · refine quietStop ?_ absent
          intro unCreated
          apply absent
          simpa [State.next, ShellApp.stop, unCreated] using missing
      exact ⟨unused.framework, unused.client, unused.active⟩

end Steps

/-- Closures held by the client were given to it. -/
def HeldGiven (state : State) : Prop :=
  ∀ callback ∈ state.held, callback < state.callbacks.length

theorem heldGiven_next {platform : Platform} (state : State) (event : Event)
    (given : HeldGiven state) : HeldGiven (state.next platform event) := by
  cases event with
  | deliver callback result =>
      simp only [State.next]
      split
      · exact given
      · exact given
  | discard callback =>
      exact fun other member => given other (List.mem_of_mem_erase member)
  | run invocation =>
      simp only [State.next]
      split
      · exact given
      · rename_i body _
        simp only [State.runBody]
        split
        · exact given
        · cases body with
          | result callback result => exact given
          | query handle info permissionBuf =>
              intro callback member
              rcases List.mem_append.mp member with earlier | added
              · have old := given callback earlier
                simp only [List.length_append]
                omega
              · obtain ⟨closure, closures, rfl⟩ := List.mem_map.mp added
                have long := List.length_pos_of_mem closures
                simp only [List.length_append]
                omega
  | _ => exact given

private theorem fault_run {platform : Platform} {state : State}
    {invocation : Nat} (missing : state.shell.permissionManager = none)
    (isEnabled : invocation < state.active.length) :
    (state.next platform (.run invocation)).faults ≠ [] := by
  simp [State.next, List.getElem?_eq_getElem isEnabled, State.runBody,
    missing]

section Continuations

variable {platform : Platform} {framework : Framework} {url : List Char}
  {asyncMode : Bool} {state : State}

/-- Whoever holds the pointer at `stop` can use it afterwards. -/
private theorem fault_after_stop (given : HeldGiven state)
    (created : state.shell.quickApp ≠ none) (inUse : ¬Unused state) :
    ∃ events,
      (system platform framework url asyncMode).Run state (.stop :: events) ∧
        ((system platform framework url asyncMode).after state
          (.stop :: events)).faults ≠ [] := by
  have missing := state.shell.stop_permissionManager created
  by_cases active : state.active = []
  · by_cases held : state.held = []
    · have queried : state.registered = true ∧ state.exited = false := by
        by_contra settled
        refine inUse ⟨fun registered => ?_, held, active⟩
        simpa [registered] using settled
      -- the application asks for a permission after the manager is gone
      refine ⟨[.query 0 ⟨1, [], true⟩ (fun _ => Permission.nul), .run 0],
        ⟨trivial, ⟨queried.1, by simp [system, State.next, queried.2]⟩,
          ?_, trivial⟩, fault_run ?_ ?_⟩
      · simp [system, State.Enabled, State.next]
      · exact missing
      · simp [system, State.next]
    · obtain ⟨callback, member⟩ := List.exists_mem_of_ne_nil _ held
      have found := List.getElem?_eq_getElem (given callback member)
      -- the client answers a request after the manager is gone
      refine ⟨[.deliver callback 0, .run 0],
        ⟨trivial, member, ?_, trivial⟩, fault_run ?_ ?_⟩
      · simp [system, State.Enabled, State.next, found]
      · simpa [system, State.next, found] using missing
      · simp [system, State.next, found]
  · have long := List.length_pos_iff.mpr active
    exact ⟨[.run 0], ⟨trivial, long, trivial⟩, fault_run missing long⟩

end Continuations

/-- No body runs with a destroyed manager in any run whose stops find the
pointer of the manager unused, and any other stop can be followed by a body
that does. -/
theorem manager_unused_after_stop (platform : Platform)
    (framework : Framework) (url : List Char) (asyncMode : Bool) :
    (∀ state, (system platform framework url asyncMode).ReachableWhen
        QuietStop state → state.faults = []) ∧
      ∀ state, (system platform framework url asyncMode).Reachable state →
        ¬QuietStop state .stop →
        ∃ events,
          (system platform framework url asyncMode).Run state
              (.stop :: events) ∧
            ((system platform framework url asyncMode).after state
              (.stop :: events)).faults ≠ [] := by
  constructor
  · intro state reachable
    have safe : Safe state := reachable.invariant
      (safe_start platform framework url asyncMode) safe_next
    exact safe.faults
  · intro state reachable inUse
    have given : HeldGiven state := reachable.invariant
      (by simp [HeldGiven, system])
      fun state event given _ => heldGiven_next state event given
    simp only [QuietStop, not_forall] at inUse
    obtain ⟨created, _, inUse⟩ := inUse
    exact fault_after_stop given created inUse

/-- An application in asynchronous mode with one permission. -/
def locationSystem : System State Event :=
  system Permission.locationPlatform
    { guiContext := 1
      application := some 2
      featureManager := fun _ => 3
      quickappPermissionManager := true }
    "hap://app/com.a".toList true

instance locationSystem.decidableEnabled (state : State) (event : Event) :
    Decidable (locationSystem.enabled state event) :=
  State.Enabled.decidable state event

/-- A query for the permission of `locationSystem`. -/
def locationQuery : Event :=
  .query 7 ⟨1, "get".toList, true⟩ (fun _ => Permission.nul)

/-- The client answers twice and lets the closure go before `stop`. -/
theorem manager_unused_after_exit :
    (locationSystem.after locationSystem.start
      [.setClient (some 0), locationQuery, .run 0,
        .deliver 0 Permission.GRANTED, .run 0, .deliver 0 0, .run 0,
        .discard 0, .exit, .stop]).faults = [] := by
  apply (manager_unused_after_stop _ _ _ _).1
  refine ⟨[.setClient (some 0), locationQuery, .run 0,
      .deliver 0 Permission.GRANTED, .run 0, .deliver 0 0, .run 0,
      .discard 0, .exit, .stop],
    ⟨⟨by decide, trivial⟩, ⟨by decide, trivial⟩, ⟨by decide, trivial⟩,
      ⟨by decide, trivial⟩, ⟨by decide, trivial⟩, ⟨by decide, trivial⟩,
      ⟨by decide, trivial⟩, ⟨by decide, trivial⟩, ⟨by decide, trivial⟩,
      ⟨by decide, ?_⟩, trivial⟩, rfl⟩
  exact fun _ _ => ⟨fun _ => rfl, rfl, rfl⟩

/-- A query after `stop`, and an answer of the client after `stop`. -/
theorem manager_used_after_stop :
    (locationSystem.Run locationSystem.start
        [.stop, locationQuery, .run 0] ∧
      (locationSystem.after locationSystem.start
        [.stop, locationQuery, .run 0]).faults.length = 1) ∧
    (locationSystem.Run locationSystem.start
        [.setClient (some 0), locationQuery, .run 0, .stop,
          .deliver 0 Permission.GRANTED, .run 0] ∧
      (locationSystem.after locationSystem.start
        [.setClient (some 0), locationQuery, .run 0, .stop,
          .deliver 0 Permission.GRANTED, .run 0]).faults.length = 1) := by
  decide

end QuickApp.Shell.PermissionLifetime
