import Mathlib.Data.List.Basic
import QuickApp.TextInput.Manager

/-!
# The input-method application

The manager launches and stops the input-method application by requests that
are handled later, one after the other.  An instance binds its controller some
time after its launch and unbinds it some time after its end.
`UnbindController` clears `input_method_application_started_` whenever it
finds its controller bound.  This is right for the latest instance with no
launch under way, and it forgets a newer instance otherwise.
-/

namespace QuickApp.TextInput

open InputMethodManager

/-- `quickapp_launch_app` and `quickapp_stop_app`. -/
inductive AppRequest where
  | launch
  | stop
  deriving DecidableEq

def Event.request : Event → Option AppRequest
  | .launchApp => some .launch
  | .stopApp => some .stop
  | _ => none

def requestsOf (events : List Event) : List AppRequest :=
  events.filterMap Event.request

/-- No launch while an instance runs. -/
def Alternates : Bool → List AppRequest → Prop
  | _, [] => True
  | running, .launch :: rest => running = false ∧ Alternates true rest
  | _, .stop :: rest => Alternates false rest

/-- Whether an instance runs when all requests have been handled. -/
def endsRunning : Bool → List AppRequest → Bool
  | running, [] => running
  | _, .launch :: rest => endsRunning true rest
  | _, .stop :: rest => endsRunning false rest

section Requests

variable {running : Bool} {requests : List AppRequest}

@[simp] theorem endsRunning_launch :
    endsRunning running (requests ++ [.launch]) = true := by
  induction requests generalizing running with
  | nil => rfl
  | cons request requests induction => cases request <;> exact induction

@[simp] theorem endsRunning_stop :
    endsRunning running (requests ++ [.stop]) = false := by
  induction requests generalizing running with
  | nil => rfl
  | cons request requests induction => cases request <;> exact induction

theorem alternates_launch (alternates : Alternates running requests)
    (ends : endsRunning running requests = false) :
    Alternates running (requests ++ [.launch]) := by
  induction requests generalizing running with
  | nil => exact ⟨ends, trivial⟩
  | cons request requests induction =>
      cases request with
      | launch => exact ⟨alternates.1, induction alternates.2 ends⟩
      | stop => exact induction alternates ends

theorem alternates_stop (alternates : Alternates running requests) :
    Alternates running (requests ++ [.stop]) := by
  induction requests generalizing running with
  | nil => trivial
  | cons request requests induction =>
      cases request with
      | launch => exact ⟨alternates.1, induction alternates.2⟩
      | stop => exact induction alternates

theorem alternates_exit (alternates : Alternates true requests) :
    Alternates false requests := by
  cases requests with
  | nil => trivial
  | cons request requests =>
      cases request with
      | launch => cases alternates.1
      | stop => exact alternates

theorem endsRunning_of_ne_nil (other : Bool) (pending : requests ≠ []) :
    endsRunning running requests = endsRunning other requests := by
  cases requests with
  | nil => exact (pending rfl).elim
  | cons request requests => cases request <;> rfl

theorem nil_of_endsRunning (noLaunch : .launch ∉ requests)
    (ends : endsRunning running requests = true) :
    requests = [] ∧ running = true := by
  induction requests generalizing running with
  | nil => exact ⟨rfl, ends⟩
  | cons request requests induction =>
      cases request with
      | launch => simp at noLaunch
      | stop =>
          have stopped := induction
            (fun member => noLaunch (List.mem_cons_of_mem _ member)) ends
          cases stopped.2

end Requests

/-- An instance of the input-method application; its controller has the same
number. -/
structure Instance where
  number : Nat
  bound : Bool
  deriving DecidableEq

/-- The manager, the requests not yet handled, the number of instances
launched so far, those running, and the ended ones that have yet to unbind
their controller. -/
structure Scene where
  session : Session := {}
  requests : List AppRequest := []
  launched : Nat := 0
  running : List Instance := []
  unbinding : List Nat := []

def anyRunning (running : List Instance) : Bool :=
  !running.isEmpty

/-- An operation by a field of an application, or a step of the input-method
application. -/
inductive Action where
  | operation (operation : Operation)
  | handle
  | bind (number : Nat)
  | exit (number : Nat)
  | unbind (number : Nat)
  deriving DecidableEq

/-- The operations that do not come from the input-method application's
start and end. -/
def Operation.IsField : Operation → Prop
  | .createInputMethod _ => True
  | .destroyInputMethod _ => True
  | .require _ _ => True
  | .updateInputText _ => True
  | _ => False

instance Operation.IsField.decidable : ∀ operation : Operation,
    Decidable operation.IsField
  | .createInputMethod _ => .isTrue trivial
  | .destroyInputMethod _ => .isTrue trivial
  | .require _ _ => .isTrue trivial
  | .updateInputText _ => .isTrue trivial
  | .bindController _ => .isFalse id
  | .unbindController _ => .isFalse id
  | .destructor => .isFalse id

namespace Scene

variable (scene : Scene)

def perform (operation : Operation) : Scene :=
  { scene with
    session := scene.session.next operation
    requests := scene.requests ++ requestsOf (scene.session.respond operation) }

/-- A launch starts a fresh instance, a stop ends what is running. -/
def handleRequest : Scene :=
  match scene.requests with
  | [] => scene
  | .launch :: rest =>
      { scene with
        requests := rest
        launched := scene.launched + 1
        running := scene.running ++ [⟨scene.launched, false⟩] }
  | .stop :: rest =>
      { scene with
        requests := rest
        running := []
        unbinding := scene.unbinding ++
          (scene.running.filter Instance.bound).map Instance.number }

def next : Action → Scene
  | .operation operation => scene.perform operation
  | .handle => scene.handleRequest
  | .bind number =>
      { scene.perform (.bindController (some number)) with
        running := scene.running.map fun running =>
          if running.number = number then ⟨number, true⟩ else running }
  | .exit number =>
      { scene with
        running := scene.running.filter fun running =>
          running.number ≠ number
        unbinding := scene.unbinding ++ [number] }
  | .unbind number =>
      { scene.perform (.unbindController (some number)) with
        unbinding := scene.unbinding.erase number }

def Enabled : Action → Prop
  | .operation operation =>
      operation.IsField ∧ scene.session.Enabled operation
  | .handle => scene.requests ≠ []
  | .bind number => ⟨number, false⟩ ∈ scene.running
  | .exit number => ⟨number, true⟩ ∈ scene.running
  | .unbind number => number ∈ scene.unbinding

instance Enabled.decidable : ∀ action, Decidable (scene.Enabled action)
  | .operation _ => inferInstanceAs (Decidable (_ ∧ scene.session.Enabled _))
  | .handle => inferInstanceAs (Decidable (_ ≠ _))
  | .bind _ => inferInstanceAs (Decidable (_ ∈ _))
  | .exit _ => inferInstanceAs (Decidable (_ ∈ _))
  | .unbind _ => inferInstanceAs (Decidable (_ ∈ _))

/-- No request, no bind and no unbind is outstanding. -/
def Quiescent : Prop :=
  scene.requests = [] ∧ scene.unbinding = [] ∧
    ∀ running ∈ scene.running, running.bound

instance Quiescent.decidable : Decidable scene.Quiescent :=
  inferInstanceAs (Decidable (_ ∧ _ ∧ _))

end Scene

/-- The action is a `Require`. -/
def Action.Requires : Action → Prop
  | .operation (.require _ _) => True
  | _ => False

/-- The manager together with the input-method application. -/
def scenes : System Scene Action where
  start := {}
  enabled := Scene.Enabled
  next := Scene.next

instance scenes.decidableEnabled (scene : Scene) (action : Action) :
    Decidable (scenes.enabled scene action) :=
  Scene.Enabled.decidable scene action

/-- A bound controller that is unbound while the flag is set belongs to the
latest instance, and no launch is under way. -/
def LatestEnded (scene : Scene) : Action → Prop
  | .unbind number =>
      scene.session.manager.currentInputMethodController = some number →
      scene.session.manager.inputMethodApplicationStarted →
        number + 1 = scene.launched ∧ .launch ∉ scene.requests
  | _ => True

@[simp] theorem requestsOf_append (first second : List Event) :
    requestsOf (first ++ second) = requestsOf first ++ requestsOf second :=
  List.filterMap_append

theorem requestsOf_perform {manager : InputMethodManager}
    {operation : Operation}
    (notRequired : ∀ inputMethod text, operation ≠ .require inputMethod text)
    (notDestroyed : ∀ inputMethod,
      operation ≠ .destroyInputMethod inputMethod) :
    requestsOf (manager.perform operation).2 = [] := by
  rw [requestsOf, List.filterMap_eq_nil_iff]
  intro event member
  have emitted := mayEmit_perform member
  cases event with
  | launchApp =>
      obtain ⟨inputMethod, text, same⟩ := emitted
      exact (notRequired inputMethod text same).elim
  | stopApp =>
      obtain ⟨inputMethod, same⟩ := emitted
      exact (notDestroyed inputMethod same).elim
  | _ => rfl

/-- What a field's operation does to the flag, with the requests it makes. -/
inductive FlagStep : Bool → Bool → List AppRequest → Prop where
  | keep (started : Bool) : FlagStep started started []
  | start : FlagStep false true [.launch]
  | stop : FlagStep true false [.stop]

private theorem flagStep_require (manager : InputMethodManager)
    (inputMethod : Option InputMethod) (initialText : Text) :
    FlagStep manager.inputMethodApplicationStarted true
      (requestsOf (manager.require inputMethod initialText).2) := by
  have lost : requestsOf (if manager.currentInputMethod.isSome ∧
      manager.currentInputMethod ≠ inputMethod then
        [Event.onFocusLost manager.currentInputMethod] else []) = [] := by
    split <;> rfl
  have updated : ∀ manager : InputMethodManager,
      requestsOf manager.updateInitialText = [] := by
    intro manager
    rw [updateInitialText]
    split <;> rfl
  simp only [require, requestsOf_append, lost, updated, List.append_nil,
    List.nil_append]
  rw [startInputMethodApplicationIfNeeded]
  cases manager.inputMethodApplicationStarted with
  | false => exact .start
  | true => exact .keep true

private theorem flagStep_destroyInputMethod (manager : InputMethodManager)
    (inputMethod : Option InputMethod) :
    FlagStep manager.inputMethodApplicationStarted
      (manager.destroyInputMethod inputMethod).1.inputMethodApplicationStarted
      (requestsOf (manager.destroyInputMethod inputMethod).2) := by
  simp only [destroyInputMethod]
  split
  · rw [stopInputMethodApplicationIfNeeded]
    cases started : manager.inputMethodApplicationStarted with
    | false => simpa [started, requestsOf, Event.request] using .keep false
    | true => exact .stop
  · exact .keep _

theorem flagStep_perform (manager : InputMethodManager)
    {operation : Operation} (isField : operation.IsField) :
    FlagStep manager.inputMethodApplicationStarted
      (manager.perform operation).1.inputMethodApplicationStarted
      (requestsOf (manager.perform operation).2) := by
  cases operation with
  | createInputMethod inputMethod => exact .keep _
  | destroyInputMethod inputMethod =>
      exact flagStep_destroyInputMethod manager inputMethod
  | require inputMethod initialText =>
      rw [perform, require_fields]
      exact flagStep_require manager inputMethod initialText
  | updateInputText text =>
      have silent : requestsOf
          (manager.perform (.updateInputText text)).2 = [] :=
        requestsOf_perform (by simp) (by simp)
      rw [silent]
      simp only [perform, updateInputText_fields]
      split <;> exact .keep _
  | bindController controller => cases isField
  | unbindController controller => cases isField
  | destructor => cases isField

theorem controller_perform (manager : InputMethodManager)
    {operation : Operation} (isField : operation.IsField) :
    (manager.perform operation).1.currentInputMethodController =
      manager.currentInputMethodController := by
  cases operation with
  | createInputMethod inputMethod => rfl
  | destroyInputMethod inputMethod =>
      rw [perform, destroyInputMethod_fields]
      split <;> rfl
  | require inputMethod initialText => rw [perform, require_fields]
  | updateInputText text =>
      simp only [perform, updateInputText_fields]
      split <;> rfl
  | bindController controller => cases isField
  | unbindController controller => cases isField
  | destructor => cases isField

/-- The flag is ahead of the application by the requests on their way, and
behind it by an unbind on its way. -/
structure Consistent (scene : Scene) : Prop where
  alternates : Alternates (anyRunning scene.running) scene.requests
  single : scene.running.length ≤ 1
  latest : ∀ running ∈ scene.running, running.number + 1 = scene.launched
  bound : ∀ running ∈ scene.running, running.bound →
    scene.session.manager.currentInputMethodController = some running.number
  ended : ∀ number ∈ scene.unbinding, number + 1 ≤ scene.launched ∧
    ∀ running ∈ scene.running, running.number ≠ number
  idle : scene.session.manager.inputMethodApplicationStarted = false →
    endsRunning (anyRunning scene.running) scene.requests = false
  busy : scene.session.manager.inputMethodApplicationStarted = true →
    endsRunning (anyRunning scene.running) scene.requests = true ∨
      (scene.requests = [] ∧ scene.running = [] ∧
        ∃ number ∈ scene.unbinding, number + 1 = scene.launched ∧
          scene.session.manager.currentInputMethodController = some number)

theorem consistent_start : Consistent scenes.start where
  alternates := trivial
  single := Nat.zero_le 1
  latest := by simp [scenes]
  bound := by simp [scenes]
  ended := by simp [scenes]
  idle := fun _ => rfl
  busy := by simp [scenes]

private theorem consistent_flagStep {scene : Scene}
    (consistent : Consistent scene) {session : Session}
    {made : List AppRequest}
    (controller : session.manager.currentInputMethodController =
      scene.session.manager.currentInputMethodController)
    (flag : FlagStep scene.session.manager.inputMethodApplicationStarted
      session.manager.inputMethodApplicationStarted made) :
    Consistent
      { scene with session, requests := scene.requests ++ made } := by
  have bound : ∀ running ∈ scene.running, running.bound →
      session.manager.currentInputMethodController =
        some running.number := by
    rw [controller]
    exact consistent.bound
  generalize before : scene.session.manager.inputMethodApplicationStarted =
    old at flag
  generalize after : session.manager.inputMethodApplicationStarted = new
    at flag
  cases flag with
  | keep =>
      refine
        { consistent with
          alternates := by simpa using consistent.alternates
          bound := bound
          idle := ?_
          busy := ?_ }
      · intro stopped
        simpa using consistent.idle (before.trans (after ▸ stopped))
      · intro started
        simpa [controller] using
          consistent.busy (before.trans (after ▸ started))
  | start =>
      exact
        { consistent with
          alternates :=
            alternates_launch consistent.alternates (consistent.idle before)
          bound := bound
          idle := fun stopped => by simp [after] at stopped
          busy := fun _ => Or.inl endsRunning_launch }
  | stop =>
      exact
        { consistent with
          alternates := alternates_stop consistent.alternates
          bound := bound
          idle := fun _ => endsRunning_stop
          busy := fun started => by simp [after] at started }

theorem Consistent.running_eq {scene : Scene} (consistent : Consistent scene)
    {running : Instance} (member : running ∈ scene.running) :
    scene.running = [running] := by
  obtain ⟨only, single⟩ := List.length_eq_one_iff.mp
    (le_antisymm consistent.single (List.length_pos_of_mem member))
  rw [single, List.mem_singleton] at member
  rw [single, member]

private theorem consistent_launch {scene : Scene}
    (consistent : Consistent scene) {rest : List AppRequest}
    (first : scene.requests = .launch :: rest) :
    Consistent scene.handleRequest := by
  have alternates := consistent.alternates
  rw [first] at alternates
  have stopped : scene.running = [] := by
    simpa [anyRunning] using alternates.1
  have ends : ∀ running, endsRunning running scene.requests =
      endsRunning true rest := fun running => by rw [first]; rfl
  simp only [Scene.handleRequest, first, stopped, List.nil_append]
  refine
    { alternates := alternates.2
      single := le_rfl
      latest := ?_
      bound := ?_
      ended := ?_
      idle := fun idle => (ends _).symm.trans (consistent.idle idle)
      busy := fun busy => ?_ }
  · intro running member
    rw [List.mem_singleton.mp member]
  · intro running member isBound
    rw [List.mem_singleton.mp member] at isBound
    cases isBound
  · intro number member
    have old := (consistent.ended number member).1
    refine ⟨Nat.le_succ_of_le old, fun running runs => ?_⟩
    rw [List.mem_singleton.mp runs]
    exact (Nat.lt_of_succ_le old).ne'
  · rcases consistent.busy busy with willRun | ⟨none_, _⟩
    · exact Or.inl ((ends _).symm.trans willRun)
    · rw [first] at none_
      cases none_

private theorem consistent_stop {scene : Scene}
    (consistent : Consistent scene) {rest : List AppRequest}
    (first : scene.requests = .stop :: rest) :
    Consistent scene.handleRequest := by
  have alternates := consistent.alternates
  rw [first] at alternates
  have ends : ∀ running, endsRunning running scene.requests =
      endsRunning false rest := fun running => by rw [first]; rfl
  simp only [Scene.handleRequest, first]
  refine
    { alternates := alternates
      single := Nat.zero_le 1
      latest := by simp
      bound := by simp
      ended := ?_
      idle := fun idle => (ends _).symm.trans (consistent.idle idle)
      busy := fun busy => ?_ }
  · intro number member
    refine ⟨?_, by simp⟩
    rcases List.mem_append.mp member with earlier | stopped
    · exact (consistent.ended number earlier).1
    · obtain ⟨running, runs, rfl⟩ := List.mem_map.mp stopped
      exact (consistent.latest running (List.mem_of_mem_filter runs)).le
  · rcases consistent.busy busy with willRun | ⟨none_, _⟩
    · exact Or.inl ((ends _).symm.trans willRun)
    · rw [first] at none_
      cases none_

private theorem consistent_bind {scene : Scene}
    (consistent : Consistent scene) {number : Nat}
    (isEnabled : ⟨number, false⟩ ∈ scene.running) :
    Consistent (scene.next (.bind number)) := by
  have only := consistent.running_eq isEnabled
  have latest := consistent.latest _ isEnabled
  have silent : requestsOf
      (scene.session.respond (.bindController (some number))) = [] :=
    requestsOf_perform (by simp) (by simp)
  have alternates := consistent.alternates
  have idle := consistent.idle
  have busy := consistent.busy
  simp only [only] at alternates idle busy
  simp only [Scene.next, Scene.perform, silent, List.append_nil, only,
    List.map_cons, List.map_nil, if_true, Session.next, perform,
    bindController_fields]
  refine
    { alternates := alternates
      single := le_rfl
      latest := ?_
      bound := ?_
      ended := ?_
      idle := idle
      busy := fun started => ?_ }
  · intro running member
    rw [List.mem_singleton.mp member]
    exact latest
  · intro running member _
    rw [List.mem_singleton.mp member]
  · intro ended member
    have old := consistent.ended ended member
    refine ⟨old.1, fun running runs => ?_⟩
    have differs : number ≠ ended := old.2 ⟨number, false⟩ isEnabled
    rwa [List.mem_singleton.mp runs]
  · rcases busy started with willRun | ⟨_, none_, _⟩
    · exact Or.inl willRun
    · cases none_

private theorem consistent_exit {scene : Scene}
    (consistent : Consistent scene) {number : Nat}
    (isEnabled : ⟨number, true⟩ ∈ scene.running) :
    Consistent (scene.next (.exit number)) := by
  have only := consistent.running_eq isEnabled
  have latest := consistent.latest _ isEnabled
  have bound := consistent.bound _ isEnabled rfl
  have alternates := consistent.alternates
  have idle := consistent.idle
  have busy := consistent.busy
  simp only [only] at alternates idle busy
  have same : ∀ {ending}, scene.requests ≠ [] →
      endsRunning true scene.requests = ending →
      endsRunning false scene.requests = ending :=
    fun pending ends => (endsRunning_of_ne_nil true pending).trans ends
  simp only [Scene.next, only, ne_eq, decide_not, List.filter_cons,
    decide_true, Bool.not_true, Bool.false_eq_true, if_false, List.filter_nil]
  refine
    { alternates := alternates_exit alternates
      single := Nat.zero_le 1
      latest := by simp
      bound := by simp
      ended := ?_
      idle := fun stopped => ?_
      busy := fun started => ?_ }
  · intro other member
    refine ⟨?_, by simp⟩
    rcases List.mem_append.mp member with earlier | ended
    · exact (consistent.ended other earlier).1
    · rw [List.mem_singleton.mp ended]
      exact latest.le
  · by_cases pending : scene.requests = []
    · simp only [pending]
      rfl
    · exact same pending (idle stopped)
  · by_cases pending : scene.requests = []
    · exact Or.inr ⟨pending, rfl, number, by simp, latest, bound⟩
    · refine Or.inl (same pending ((busy started).resolve_right ?_))
      exact fun behind => pending behind.1

private theorem consistent_unbind {scene : Scene}
    (consistent : Consistent scene) {number : Nat}
    (isEnabled : number ∈ scene.unbinding)
    (latestEnded : LatestEnded scene (.unbind number)) :
    Consistent (scene.next (.unbind number)) := by
  have silent : requestsOf
      (scene.session.respond (.unbindController (some number))) = [] :=
    requestsOf_perform (by simp) (by simp)
  have ended : ∀ other ∈ scene.unbinding.erase number,
      other + 1 ≤ scene.launched ∧
        ∀ running ∈ scene.running, running.number ≠ other :=
    fun other member => consistent.ended other (List.mem_of_mem_erase member)
  simp only [Scene.next, Scene.perform, silent, List.append_nil, Session.next,
    perform, unbindController_fields]
  split
  · rename_i hits
    refine
      { consistent with
        bound := ?_
        ended := ended
        idle := fun _ => ?_
        busy := by simp }
    · intro running member isBound
      have same := (consistent.bound running member isBound).symm.trans hits
      exact ((consistent.ended number isEnabled).2 running member
        (Option.some.inj same)).elim
    · cases started :
          scene.session.manager.inputMethodApplicationStarted with
      | false => exact consistent.idle started
      | true =>
          obtain ⟨latest, noLaunch⟩ := latestEnded hits started
          rcases consistent.busy started with willRun | ⟨none_, stopped, _⟩
          · -- the latest instance has ended, so nothing runs now
            have runs := (nil_of_endsRunning noLaunch willRun).2
            obtain ⟨running, member⟩ : ∃ running, running ∈ scene.running := by
              apply List.exists_mem_of_ne_nil
              simpa [anyRunning] using runs
            have same := consistent.latest running member
            exact ((consistent.ended number isEnabled).2 running member
              (by omega)).elim
          · simp only [none_, stopped]
            rfl
  · rename_i misses
    refine { consistent with ended := ended, busy := fun started => ?_ }
    apply (consistent.busy started).imp_right
    rintro ⟨noRequest, stopped, other, member, latest, controller⟩
    refine ⟨noRequest, stopped, other, ?_, latest, controller⟩
    refine (List.mem_erase_of_ne ?_).mpr member
    rintro rfl
    exact misses controller

theorem consistent_next (scene : Scene) (action : Action)
    (consistent : Consistent scene) (isEnabled : scene.Enabled action)
    (latestEnded : LatestEnded scene action) :
    Consistent (scene.next action) := by
  cases action with
  | operation operation =>
      exact consistent_flagStep consistent (controller_perform _ isEnabled.1)
        (flagStep_perform _ isEnabled.1)
  | handle =>
      cases first : scene.requests with
      | nil => exact (isEnabled first).elim
      | cons request rest =>
          cases request with
          | launch => exact consistent_launch consistent first
          | stop => exact consistent_stop consistent first
  | bind number => exact consistent_bind consistent isEnabled
  | exit number => exact consistent_exit consistent isEnabled
  | unbind number => exact consistent_unbind consistent isEnabled latestEnded

/-- With nothing outstanding the flag says whether an instance runs. -/
theorem Consistent.flag {scene : Scene} (consistent : Consistent scene)
    (quiescent : scene.Quiescent) :
    scene.session.manager.inputMethodApplicationStarted ↔
      scene.running ≠ [] := by
  obtain ⟨noRequest, noUnbind, _⟩ := quiescent
  have idle := consistent.idle
  have busy := consistent.busy
  simp only [noRequest, noUnbind, endsRunning] at idle busy
  constructor
  · intro started
    rcases busy started with runs | ⟨_, _, number, member, _⟩
    · simpa [anyRunning] using runs
    · cases member
  · intro runs
    by_contra stopped
    rw [Bool.not_eq_true] at stopped
    exact runs (by simpa [anyRunning] using idle stopped)

private theorem stays_stopped {scene : Scene} {action : Action}
    (isEnabled : scene.Enabled action)
    (notRequired : ¬action.Requires)
    (stopped :
      scene.session.manager.inputMethodApplicationStarted = false) :
    (scene.next action).session.manager.inputMethodApplicationStarted =
      false := by
  cases action with
  | operation operation =>
      have flag := flagStep_perform scene.session.manager isEnabled.1
      have manager : (scene.next (.operation operation)).session.manager =
          (scene.session.manager.perform operation).1 := rfl
      rw [manager]
      cases operation with
      | require inputMethod text => exact (notRequired trivial).elim
      | createInputMethod inputMethod => exact stopped
      | destroyInputMethod inputMethod =>
          rw [perform, destroyInputMethod_fields]
          split
          · rfl
          · exact stopped
      | updateInputText text =>
          simp only [perform, updateInputText_fields]
          split <;> exact stopped
      | _ => exact isEnabled.1.elim
  | handle =>
      simp only [Scene.next, Scene.handleRequest]
      split <;> exact stopped
  | bind number =>
      simpa [Scene.next, Scene.perform, perform, bindController_fields]
        using stopped
  | exit number => exact stopped
  | unbind number =>
      simp only [Scene.next, Scene.perform, manager_next, perform,
        unbindController_fields]
      split
      · rfl
      · exact stopped

private theorem stopped_after {scene : Scene} {actions : List Action}
    (run : scenes.Run scene actions)
    (notRequired : ∀ action ∈ actions, ¬action.Requires)
    (stopped :
      scene.session.manager.inputMethodApplicationStarted = false) :
    (scenes.after scene actions).session.manager.inputMethodApplicationStarted
      = false := by
  induction actions generalizing scene with
  | nil => exact stopped
  | cons action actions induction =>
      obtain ⟨first, rest⟩ := List.forall_mem_cons.mp notRequired
      exact induction run.2 rest (stays_stopped run.1 first stopped)

private theorem consistent_of_reachableWhen {scene : Scene}
    (reachable : scenes.ReachableWhen LatestEnded scene) : Consistent scene :=
  reachable.invariant consistent_start consistent_next

/-- In every run in which the controller of the latest instance is the only
one unbound while bound and started, and not with a launch under way: when
nothing is outstanding, the flag says whether an instance runs, and destroying
the current input method leaves none running. -/
theorem flag_matches_application {scene : Scene}
    (reachable : scenes.ReachableWhen LatestEnded scene)
    (quiescent : scene.Quiescent) :
    (scene.session.manager.inputMethodApplicationStarted ↔
        scene.running ≠ []) ∧
      ∀ inputMethod actions,
        scene.session.manager.currentInputMethod = some inputMethod →
        scenes.RunWhen LatestEnded scene
          (.operation (.destroyInputMethod (some inputMethod)) :: actions) →
        (∀ action ∈ actions, ¬action.Requires) →
        (scenes.after scene
          (.operation (.destroyInputMethod (some inputMethod)) ::
            actions)).Quiescent →
        (scenes.after scene
          (.operation (.destroyInputMethod (some inputMethod)) ::
            actions)).running = [] := by
  refine ⟨(consistent_of_reachableWhen reachable).flag quiescent, ?_⟩
  intro inputMethod actions current run notRequired settled
  have consistent : Consistent (scenes.after scene
      (.operation (.destroyInputMethod (some inputMethod)) :: actions)) :=
    run.invariant consistent_next (consistent_of_reachableWhen reachable)
  have stopped := stopped_after run.run.2 notRequired (by
    simp [scenes, Scene.next, Scene.perform, perform,
      destroyInputMethod_fields, current])
  by_contra runs
  have started := (consistent.flag settled).mpr runs
  rw [System.after_cons, stopped] at started
  cases started

/-- One field, its keyboard, and the end of both. -/
theorem flag_matches_application_one_field :
    (scenes.after scenes.start
      [.operation (.createInputMethod 0), .operation (.require (some 0) []),
        .handle, .bind 0, .operation (.destroyInputMethod (some 0)),
        .handle, .unbind 0]).running = [] := by
  have quiet : scenes.RunWhen LatestEnded scenes.start
      [.operation (.createInputMethod 0), .operation (.require (some 0) []),
        .handle, .bind 0] := by
    refine ⟨⟨by decide, trivial⟩, ⟨by decide, trivial⟩,
      ⟨by decide, trivial⟩, ⟨by decide, trivial⟩, trivial⟩
  refine (flag_matches_application ⟨_, quiet, rfl⟩ (by decide)).2 0
    [.handle, .unbind 0] rfl ?_ ?_ (by decide)
  · refine ⟨⟨by decide, trivial⟩, ⟨by decide, trivial⟩,
      ⟨by decide, ?_⟩, trivial⟩
    exact fun _ started => by cases started
  · intro action member
    simp only [List.mem_cons, List.not_mem_nil, or_false] at member
    rcases member with rfl | rfl <;> exact id

/-- The first field loses its keyboard, the second one gets a new instance,
and the old instance unbinds before the new one binds. -/
def lateUnbind : List Action :=
  [.operation (.createInputMethod 0), .operation (.createInputMethod 1),
    .operation (.require (some 0) []), .handle, .bind 0,
    .operation (.destroyInputMethod (some 0)),
    .operation (.require (some 1) []), .handle, .handle,
    .unbind 0, .bind 1]

/-- The late unbind clears the flag, and the new instance runs on. -/
theorem new_instance_forgotten :
    scenes.Run scenes.start lateUnbind ∧
      (scenes.after scenes.start lateUnbind).Quiescent ∧
      (scenes.after scenes.start lateUnbind).running = [⟨1, true⟩] ∧
      (scenes.after scenes.start
        lateUnbind).session.manager.inputMethodApplicationStarted = false := by
  decide

end QuickApp.TextInput
