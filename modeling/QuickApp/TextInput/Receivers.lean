import QuickApp.TextInput.Manager

/-!
# Receivers of the manager's calls

Every operation tests its pointers in a way of its own before it calls a
method through one of them.  `UnbindController` compares its argument with the
bound controller, and the comparison succeeds when both are null.
-/

namespace QuickApp.TextInput

/-- A method is called through a null pointer. -/
def Event.FollowsNull : Event → Prop
  | .onFocusLost inputMethod => inputMethod = none
  | .onTextChanged inputMethod _ => inputMethod = none
  | .bind controller => controller = none
  | .unbind controller => controller = none
  | .updateInitialText controller _ => controller = none
  | _ => False

/-- No call of the operation goes through a null pointer. -/
def FollowsNoNull (session : Session) (operation : Operation) : Prop :=
  ∀ event ∈ session.respond operation, ¬event.FollowsNull

/-- A null controller is unbound only where another controller is bound, and
the comparison therefore fails. -/
def UnbindsNoNull (session : Session) : Operation → Prop
  | .unbindController controller =>
      controller = none → session.manager.currentInputMethodController ≠ none
  | _ => True

section Steps

variable {session : Session} {operation : Operation}

private theorem not_null {α : Type} {pointer : Option α}
    (present : pointer.isSome) : pointer ≠ none := by
  rintro rfl
  cases present

private theorem unbind_none_of_followsNull {event : Event}
    (member : event ∈ session.respond operation)
    (follows : event.FollowsNull) :
    event = .unbind none ∧
      session.manager.currentInputMethodController = none := by
  have mayEmit := mayEmit_perform member
  cases event with
  | onFocusLost inputMethod => exact absurd follows (not_null mayEmit.2)
  | onTextChanged inputMethod text =>
      exact absurd follows (not_null mayEmit.2.1)
  | bind controller => exact absurd follows (not_null mayEmit.2)
  | updateInitialText controller text =>
      exact absurd follows (not_null mayEmit)
  | unbind controller =>
      have isBound : controller =
          session.manager.currentInputMethodController := mayEmit
      have isNull : controller = none := follows
      exact ⟨congrArg Event.unbind isNull, isBound.symm.trans isNull⟩
  | _ => cases follows

private theorem unbindController_of_unbind_none
    (unbound : session.manager.currentInputMethodController = none)
    (member : Event.unbind none ∈ session.respond operation) :
    operation = .unbindController none := by
  cases operation with
  | createInputMethod inputMethod =>
      simp [Session.respond, InputMethodManager.perform,
        InputMethodManager.createInputMethod] at member
  | destroyInputMethod inputMethod =>
      simp only [Session.respond, InputMethodManager.perform,
        InputMethodManager.destroyInputMethod, List.mem_append] at member
      rcases member with stopped | deleted
      · split at stopped
        · have isStop := InputMethodManager.eq_of_mem_stop stopped
          cases isStop
        · cases stopped
      · cases List.mem_singleton.mp deleted
  | require inputMethod initialText =>
      simp only [Session.respond, InputMethodManager.perform,
        InputMethodManager.require, List.mem_append, List.mem_cons] at member
      rcases member with (lost | required | started) | updated
      · split at lost
        · cases List.mem_singleton.mp lost
        · cases lost
      · cases required
      · cases InputMethodManager.eq_of_mem_start started
      · cases InputMethodManager.eq_of_mem_updateInitialText updated
  | bindController controller =>
      simp only [Session.respond, InputMethodManager.perform,
        InputMethodManager.bindController, unbound] at member
      split at member
      · cases member
      · simp only [List.mem_append] at member
        rcases member with (unbinds | binds) | updated
        · simp at unbinds
        · split at binds
          · cases List.mem_singleton.mp binds
          · cases binds
        · cases InputMethodManager.eq_of_mem_updateInitialText updated
  | unbindController controller =>
      simp only [Session.respond, InputMethodManager.perform,
        InputMethodManager.unbindController, unbound] at member
      split at member
      · cases member
      · rename_i same
        rw [not_not.mp same]
  | updateInputText text =>
      simp only [Session.respond, InputMethodManager.perform,
        InputMethodManager.updateInputText, List.mem_cons] at member
      rcases member with submitted | changed
      · cases submitted
      · split at changed
        · cases List.mem_singleton.mp changed
        · cases changed
  | destructor =>
      simp only [Session.respond, InputMethodManager.perform,
        InputMethodManager.destructor, unbound] at member
      simp at member

/-- One operation calls through a null pointer exactly when it unbinds null
while null is bound. -/
theorem followsNoNull_iff :
    FollowsNoNull session operation ↔ UnbindsNoNull session operation := by
  constructor
  · intro follows
    cases operation with
    | unbindController controller =>
        rintro rfl unbound
        apply follows (.unbind none) _ rfl
        simp [Session.respond, InputMethodManager.perform,
          InputMethodManager.unbindController, unbound]
    | createInputMethod inputMethod => trivial
    | destroyInputMethod inputMethod => trivial
    | require inputMethod initialText => trivial
    | bindController controller => trivial
    | updateInputText text => trivial
    | destructor => trivial
  · intro unbinds event member follows
    obtain ⟨rfl, unbound⟩ := unbind_none_of_followsNull member follows
    obtain rfl := unbindController_of_unbind_none unbound member
    exact unbinds rfl unbound

end Steps

/-- A sequence of operations on a new manager follows no null pointer if and
only if none of its operations unbinds null while null is bound. -/
theorem allSteps_followsNoNull_iff (operations : List Operation) :
    system.AllSteps FollowsNoNull system.start operations ↔
      system.AllSteps UnbindsNoNull system.start operations := by
  constructor
  · apply System.AllSteps.imp
    intro session operation
    exact followsNoNull_iff.mp
  · apply System.AllSteps.imp
    intro session operation
    exact followsNoNull_iff.mpr

/-- A new manager has no controller, and unbinding none calls `Unbind` on it. -/
theorem unbindController_follows_null :
    system.Run system.start [.unbindController none] ∧
      ¬system.AllSteps FollowsNoNull system.start
        [.unbindController none] := by
  refine ⟨by decide, ?_⟩
  intro all
  have unbinds := (followsNoNull_iff.mp all.1) rfl
  exact unbinds rfl

end QuickApp.TextInput
