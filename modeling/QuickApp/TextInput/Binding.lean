import Mathlib.Data.Finset.Card
import QuickApp.TextInput.Manager

/-!
# The binding protocol

The calls `Bind` and `Unbind` on each controller are read off the trace.  The
manager keeps one pointer, and every operation that changes it makes the
matching calls: a controller is unbound before another one is bound, and a
text goes only to the controller that is bound at that moment.
-/

namespace QuickApp.TextInput

open InputMethodManager

/-- The bound controllers after an event. -/
def boundAfter (bound : Finset InputMethodController) :
    Event → Finset InputMethodController
  | .bind (some controller) => insert controller bound
  | .unbind (some controller) => bound.erase controller
  | _ => bound

/-- What an event needs: `Bind` a controller that is not bound, `Unbind` and
`UpdateInitialText` one that is. -/
def Admits (bound : Finset InputMethodController) : Event → Prop
  | .bind controller => ∃ other, controller = some other ∧ other ∉ bound
  | .unbind controller => ∃ other ∈ bound, controller = some other
  | .updateInitialText controller _ =>
      ∃ other ∈ bound, controller = some other
  | _ => True

/-- At most one controller is bound, and the calls fit what is bound. -/
def bindingProtocol : System (Finset InputMethodController) Event where
  start := ∅
  enabled bound event := (boundAfter bound event).card ≤ 1 ∧ Admits bound event
  next := boundAfter

/-- `Bind` (true) and `Unbind` (false) among the calls on a controller. -/
def bindCalls (controller : InputMethodController) (trace : List Event) :
    List Bool :=
  trace.filterMap fun event =>
    match event with
    | .bind (some other) => if other = controller then some true else none
    | .unbind (some other) => if other = controller then some false else none
    | _ => none

/-- Calls that alternate, the first being `expected`. -/
def CallsAlternate : Bool → List Bool → Prop
  | _, [] => True
  | expected, call :: calls => call = expected ∧ CallsAlternate (!expected) calls

/-- The controllers bound at the end of a trace. -/
def boundOf (trace : List Event) : Finset InputMethodController :=
  bindingProtocol.after ∅ trace

/-- The law about the trace of a session. -/
structure BindingLaw (session : Session) : Prop where
  alternate : ∀ controller,
    CallsAlternate true (bindCalls controller session.trace)
  current : session.destructed = false → boundOf session.trace =
    session.manager.currentInputMethodController.toFinset
  released : session.destructed = true → boundOf session.trace = ∅
  single : ∀ front back, session.trace = front ++ back →
    (boundOf front).card ≤ 1
  delivered : ∀ front controller text back,
    session.trace = front ++ .updateInitialText controller text :: back →
      ∃ other ∈ boundOf front, controller = some other
  receivers : .bind none ∉ session.trace ∧ .unbind none ∉ session.trace

/-- The runs in which `UnbindController` gets a controller. -/
def bindingSystem : System Session Operation where
  start := {}
  enabled session operation :=
    session.destructed = false ∧ operation ≠ .unbindController none
  next := Session.next

instance bindingSystem.decidableEnabled (session : Session)
    (operation : Operation) :
    Decidable (bindingSystem.enabled session operation) :=
  inferInstanceAs (Decidable (_ ∧ _))

theorem callsAlternate_of_run {trace : List Event}
    {bound : Finset InputMethodController}
    (run : bindingProtocol.Run bound trace)
    (controller : InputMethodController) :
    CallsAlternate (decide (controller ∉ bound)) (bindCalls controller trace) := by
  induction trace generalizing bound with
  | nil => trivial
  | cons event trace induction =>
      obtain ⟨⟨_, admitted⟩, rest⟩ := run
      have tail := induction rest
      cases event with
      | bind receiver =>
          obtain ⟨other, rfl, absent⟩ := admitted
          by_cases same : other = controller
          · subst same
            have call : bindCalls other (.bind (some other) :: trace) =
                true :: bindCalls other trace := by
              simp [bindCalls]
            rw [call]
            refine ⟨by simpa using absent, ?_⟩
            simpa [bindingProtocol, boundAfter, absent] using tail
          · have call : bindCalls controller (.bind (some other) :: trace) =
                bindCalls controller trace := by
              simp [bindCalls, same]
            rw [call]
            simpa [bindingProtocol, boundAfter, Ne.symm same] using tail
      | unbind receiver =>
          obtain ⟨other, member, rfl⟩ := admitted
          by_cases same : other = controller
          · subst same
            have call : bindCalls other (.unbind (some other) :: trace) =
                false :: bindCalls other trace := by
              simp [bindCalls]
            rw [call]
            refine ⟨by simpa using member, ?_⟩
            simpa [bindingProtocol, boundAfter, member] using tail
          · have call : bindCalls controller (.unbind (some other) :: trace) =
                bindCalls controller trace := by
              simp [bindCalls, same]
            rw [call]
            simpa [bindingProtocol, boundAfter, Ne.symm same] using tail
      | _ => exact tail

theorem single_of_run {front back : List Event}
    (run : bindingProtocol.Run ∅ (front ++ back)) :
    (boundOf front).card ≤ 1 := by
  have first := (System.run_append.mp run).1
  have kept (bound : Finset InputMethodController) (event : Event)
      (_ : bound.card ≤ 1) (isEnabled : bindingProtocol.enabled bound event) :
      (bindingProtocol.next bound event).card ≤ 1 := isEnabled.1
  exact first.invariant kept (by simp)

theorem admits_of_run {front back : List Event} {event : Event}
    (run : bindingProtocol.Run ∅ (front ++ event :: back)) :
    Admits (boundOf front) event := by
  have rest := (System.run_append.mp run).2
  exact rest.1.2

theorem receivers_of_run {trace : List Event}
    (run : bindingProtocol.Run ∅ trace) :
    .bind none ∉ trace ∧ .unbind none ∉ trace := by
  constructor
  · intro member
    obtain ⟨front, back, rfl⟩ := List.append_of_mem member
    obtain ⟨_, impossible, _⟩ := admits_of_run run
    cases impossible
  · intro member
    obtain ⟨front, back, rfl⟩ := List.append_of_mem member
    obtain ⟨_, _, impossible⟩ := admits_of_run run
    cases impossible

/-- Neither a binding nor a text for a controller. -/
def Event.silent : Event → Bool
  | .bind _ => false
  | .unbind _ => false
  | .updateInitialText _ _ => false
  | _ => true

section Silent

variable {bound : Finset InputMethodController} {events : List Event}

private theorem next_silent {event : Event} (silent : event.silent) :
    bindingProtocol.next bound event = bound := by
  cases event with
  | bind controller => cases silent
  | unbind controller => cases silent
  | updateInitialText controller text => cases silent
  | _ => rfl

private theorem enabled_silent {event : Event} (silent : event.silent)
    (single : bound.card ≤ 1) : bindingProtocol.enabled bound event := by
  have same : boundAfter bound event = bound := next_silent silent
  constructor
  · rw [same]
    exact single
  · cases event with
    | bind controller => cases silent
    | unbind controller => cases silent
    | updateInitialText controller text => cases silent
    | _ => trivial

theorem after_silent (silent : ∀ event ∈ events, event.silent) :
    bindingProtocol.after bound events = bound :=
  System.after_fixed fun event member => next_silent (silent event member)

theorem run_silent (silent : ∀ event ∈ events, event.silent)
    (single : bound.card ≤ 1) : bindingProtocol.Run bound events :=
  System.run_fixed
    (fun event member => next_silent (silent event member))
    (fun event member => enabled_silent (silent event member) single)

end Silent

/-- The events fit the controllers bound before and after them. -/
structure Rebinds (before : Option InputMethodController)
    (events : List Event) (after : Option InputMethodController) : Prop where
  run : bindingProtocol.Run before.toFinset events
  bound : bindingProtocol.after before.toFinset events = after.toFinset

theorem Rebinds.append {first middle last : Option InputMethodController}
    {front back : List Event} (left : Rebinds first front middle)
    (right : Rebinds middle back last) :
    Rebinds first (front ++ back) last := by
  constructor
  · rw [System.run_append, left.bound]
    exact ⟨left.run, right.run⟩
  · rw [System.after_append, left.bound, right.bound]

private theorem card_controller (controller : Option InputMethodController) :
    controller.toFinset.card ≤ 1 := by
  cases controller with
  | none => simp
  | some controller => simp

theorem rebinds_silent {controller : Option InputMethodController}
    {events : List Event} (silent : ∀ event ∈ events, event.silent) :
    Rebinds controller events controller :=
  ⟨run_silent silent (card_controller controller), after_silent silent⟩

theorem rebinds_updateInitialText (manager : InputMethodManager) :
    Rebinds manager.currentInputMethodController manager.updateInitialText
      manager.currentInputMethodController := by
  rw [updateInitialText]
  cases controller : manager.currentInputMethodController with
  | none => exact rebinds_silent (by simp)
  | some current =>
      constructor
      · refine ⟨⟨?_, current, by simp, rfl⟩, trivial⟩
        exact card_controller (some current)
      · rfl

theorem rebinds_unbind (controller : Option InputMethodController) :
    Rebinds controller
      (if controller.isSome then [.unbind controller] else []) none := by
  cases controller with
  | none => exact rebinds_silent (by simp)
  | some current =>
      constructor
      · refine ⟨⟨?_, current, by simp, rfl⟩, trivial⟩
        simp [boundAfter]
      · simp [bindingProtocol, boundAfter]

theorem rebinds_bind (controller : Option InputMethodController) :
    Rebinds none
      (if controller.isSome then [.bind controller] else []) controller := by
  cases controller with
  | none => exact rebinds_silent (by simp)
  | some new =>
      constructor
      · refine ⟨⟨?_, new, rfl, by simp⟩, trivial⟩
        simp [boundAfter]
      · simp [bindingProtocol, boundAfter]

section Operations

variable (manager : InputMethodManager)

private theorem silent_start :
    ∀ event ∈ manager.startInputMethodApplicationIfNeeded.2,
      event.silent := by
  intro event member
  rw [eq_of_mem_start member]
  rfl

private theorem silent_stop :
    ∀ event ∈ manager.stopInputMethodApplicationIfNeeded.2,
      event.silent := by
  intro event member
  rw [eq_of_mem_stop member]
  rfl

private theorem silent_lost (condition : Prop) [Decidable condition]
    (inputMethod : Option InputMethod) :
    ∀ event ∈ if condition then [Event.onFocusLost inputMethod] else [],
      event.silent := by
  intro event member
  split at member
  · rw [List.mem_singleton.mp member]
    rfl
  · cases member

theorem rebinds_require (inputMethod : Option InputMethod)
    (initialText : Text) :
    Rebinds manager.currentInputMethodController
      (manager.require inputMethod initialText).2
      manager.currentInputMethodController := by
  simp only [require, List.append_assoc]
  apply Rebinds.append
  · exact rebinds_silent (silent_lost _ _)
  · rw [List.cons_append, ← List.singleton_append]
    apply Rebinds.append
    · exact rebinds_silent (by simp [Event.silent])
    · apply Rebinds.append
      · exact rebinds_silent (silent_start _)
      · have updated := rebinds_updateInitialText
          (startInputMethodApplicationIfNeeded
            { manager with
              currentInputMethod := inputMethod
              cachedInitialText := initialText }).1
        simpa using updated

theorem rebinds_destroyInputMethod (inputMethod : Option InputMethod) :
    Rebinds manager.currentInputMethodController
      (manager.destroyInputMethod inputMethod).2
      manager.currentInputMethodController := by
  simp only [destroyInputMethod]
  apply Rebinds.append
  · split
    · exact rebinds_silent (silent_stop _)
    · exact rebinds_silent (by simp)
  · exact rebinds_silent (by simp [Event.silent])

theorem rebinds_bindController (controller : Option InputMethodController) :
    Rebinds manager.currentInputMethodController
      (manager.bindController controller).2 controller := by
  rw [bindController]
  split
  · rename_i same
    rw [same]
    exact rebinds_silent (by simp)
  · apply Rebinds.append
    · apply Rebinds.append
      · exact rebinds_unbind _
      · exact rebinds_bind controller
    · exact rebinds_updateInitialText
        { manager with currentInputMethodController := controller }

theorem rebinds_unbindController (controller : InputMethodController) :
    Rebinds manager.currentInputMethodController
      (manager.unbindController (some controller)).2
      (manager.unbindController
        (some controller)).1.currentInputMethodController := by
  rw [unbindController_fields]
  simp only [unbindController, ne_eq, ite_not]
  split
  · rename_i same
    rw [same, ← List.singleton_append]
    apply Rebinds.append
    · exact rebinds_unbind (some controller)
    · exact rebinds_silent (silent_lost _ _)
  · exact rebinds_silent (by simp)

theorem rebinds_updateInputText (text : Text) :
    Rebinds manager.currentInputMethodController
      (manager.perform (.updateInputText text)).2
      manager.currentInputMethodController := by
  apply rebinds_silent
  simp only [perform, updateInputText]
  split
  · simp [Event.silent]
  · simp [Event.silent]

theorem rebinds_destructor :
    Rebinds manager.currentInputMethodController manager.destructor none := by
  rw [destructor]
  apply Rebinds.append
  · exact rebinds_silent (silent_lost _ _)
  · exact rebinds_unbind _

end Operations

/-- An operation other than the destructor leaves the manager's controller
bound, and nothing else. -/
theorem rebinds_perform (manager : InputMethodManager) {operation : Operation}
    (notDestructor : operation ≠ .destructor)
    (notNull : operation ≠ .unbindController none) :
    Rebinds manager.currentInputMethodController (manager.perform operation).2
      (manager.perform operation).1.currentInputMethodController := by
  cases operation with
  | createInputMethod inputMethod =>
      exact rebinds_silent (by simp [perform, createInputMethod, Event.silent])
  | destroyInputMethod inputMethod =>
      have destroyed := rebinds_destroyInputMethod manager inputMethod
      simp only [perform, destroyInputMethod_fields]
      split <;> exact destroyed
  | require inputMethod initialText =>
      simp only [perform, require_fields]
      exact rebinds_require manager inputMethod initialText
  | bindController controller =>
      simp only [perform, bindController_fields]
      exact rebinds_bindController manager controller
  | unbindController controller =>
      cases controller with
      | none => exact (notNull rfl).elim
      | some controller => exact rebinds_unbindController manager controller
  | updateInputText text =>
      have updated := rebinds_updateInputText manager text
      have kept : (manager.perform
          (.updateInputText text)).1.currentInputMethodController =
            manager.currentInputMethodController := by
        simp only [perform, updateInputText_fields]
        split <;> rfl
      rw [kept]
      exact updated
  | destructor => exact (notDestructor rfl).elim

/-- The trace follows the protocol and ends with the manager's controller, or
with none after the destructor. -/
structure Bound (session : Session) : Prop where
  run : bindingProtocol.Run ∅ session.trace
  current : session.destructed = false → boundOf session.trace =
    session.manager.currentInputMethodController.toFinset
  released : session.destructed = true → boundOf session.trace = ∅

private theorem bound_next {session : Session} {operation : Operation}
    (bound : Bound session) (isEnabled : bindingSystem.enabled session operation)
    {controller : Option InputMethodController}
    (rebinds : Rebinds session.manager.currentInputMethodController
      (session.respond operation) controller) :
    bindingProtocol.Run ∅ (session.next operation).trace ∧
      boundOf (session.next operation).trace = controller.toFinset := by
  have current := bound.current isEnabled.1
  constructor
  · rw [trace_next, System.run_append]
    refine ⟨bound.run, ?_⟩
    rw [← boundOf, current]
    exact rebinds.run
  · rw [trace_next, boundOf, System.after_append, ← boundOf, current]
    exact rebinds.bound

theorem bound_step (session : Session) (operation : Operation)
    (bound : Bound session)
    (isEnabled : bindingSystem.enabled session operation) :
    Bound (session.next operation) := by
  by_cases isDestructor : operation = .destructor
  · subst isDestructor
    obtain ⟨run, last⟩ := bound_next bound isEnabled
      (rebinds_destructor session.manager)
    constructor
    · exact run
    · intro alive
      simp [Session.next] at alive
    · intro _
      exact last
  · obtain ⟨run, last⟩ := bound_next bound isEnabled
      (rebinds_perform session.manager isDestructor isEnabled.2)
    have alive : (session.next operation).destructed = false := by
      simp [Session.next, isEnabled.1, isDestructor]
    constructor
    · exact run
    · intro _
      exact last
    · intro destructed
      rw [alive] at destructed
      cases destructed

/-- In every run, up to and including the destructor: `Bind` and `Unbind`
alternate on each controller, the bound controller is the manager's, at most
one is bound at any moment, a text goes to a bound controller, and in the end
none is bound. -/
theorem controller_binding {session : Session}
    (reachable : bindingSystem.Reachable session) : BindingLaw session := by
  have bound : Bound session := by
    apply reachable.invariant
    · exact ⟨trivial, fun _ => rfl, fun _ => rfl⟩
    · exact bound_step
  constructor
  · intro controller
    have alternates := callsAlternate_of_run bound.run controller
    simpa using alternates
  · exact bound.current
  · exact bound.released
  · intro front back split
    have run := bound.run
    rw [split] at run
    exact single_of_run run
  · intro front controller text back split
    have run := bound.run
    rw [split] at run
    exact admits_of_run run
  · exact receivers_of_run bound.run

/-- A controller is replaced and its stale unbinding does nothing, the other
one unbinds itself, and the destructor unbinds the first one again. -/
theorem controller_binding_replaced :
    let session := bindingSystem.after bindingSystem.start
      [.bindController (some 7), .require (some 0) "a".toList,
        .bindController (some 8), .unbindController (some 7),
        .unbindController (some 8), .bindController (some 7), .destructor]
    session.trace =
        [.bind (some 7), .updateInitialText (some 7) [],
          .required (some 0) "a".toList, .launchApp,
          .updateInitialText (some 7) "a".toList, .unbind (some 7),
          .bind (some 8), .updateInitialText (some 8) "a".toList,
          .unbind (some 8), .onFocusLost (some 0), .bind (some 7),
          .updateInitialText (some 7) "a".toList, .onFocusLost (some 0),
          .unbind (some 7)] ∧
      BindingLaw session := by
  intro session
  have reachable : bindingSystem.Reachable session := ⟨_, by decide, rfl⟩
  exact ⟨by decide, controller_binding reachable⟩

end QuickApp.TextInput
