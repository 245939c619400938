import QuickApp.TextInput.Manager

/-!
# Agreement of field and keyboard

The text of an input method and the view of a controller are read off the
trace; `cached_initial_text_` is the copy the manager keeps.  As long as an
input method is current its text is the cached one, and the view of a bound
controller as well.
-/

namespace QuickApp.TextInput

open InputMethodManager

/-- The text of each input method and the view of each controller. -/
structure Copies where
  text : InputMethod → Option Text
  view : InputMethodController → Option Text

/-- `Require` and `OnTextChanged` set a text, `UpdateInitialText` and the
submission of a text set a view.  A new input method has no text. -/
def copies : System Copies Event where
  start := { text := fun _ => none, view := fun _ => none }
  enabled _ _ := True
  next held
    | .created inputMethod =>
        { held with text := Function.update held.text inputMethod none }
    | .required (some inputMethod) text
    | .onTextChanged (some inputMethod) text =>
        { held with text := Function.update held.text inputMethod (some text) }
    | .updateInitialText (some controller) text
    | .submitted (some controller) text =>
        { held with view := Function.update held.view controller (some text) }
    | _ => held

/-- The copies at the end of a session. -/
def Session.copies (session : Session) : Copies :=
  TextInput.copies.after TextInput.copies.start session.trace

theorem copies_next (session : Session) (operation : Operation) :
    (session.next operation).copies =
      copies.after session.copies (session.respond operation) := by
  rw [Session.copies, trace_next, System.after_append, ← Session.copies]

/-- The manager's text is that of the current input method and the view of
the bound controller. -/
structure Agrees (manager : InputMethodManager) (held : Copies) : Prop where
  text : ∀ inputMethod, manager.currentInputMethod = some inputMethod →
    held.text inputMethod = some manager.cachedInitialText
  view : ∀ inputMethod controller,
    manager.currentInputMethod = some inputMethod →
    manager.currentInputMethodController = some controller →
    held.view controller = some manager.cachedInitialText

/-- The current input method exists and no call went to one that did not. -/
structure Alive (session : Session) : Prop where
  current : session.Valid session.manager.currentInputMethod
  notified : lifetimes.Run ∅ session.trace

private theorem run_respond {session : Session}
    (current : session.Valid session.manager.currentInputMethod)
    {operation : Operation}
    (lasting : ∀ event ∈ session.respond operation,
      lifetimes.next session.live event = session.live) :
    lifetimes.Run session.live (session.respond operation) := by
  apply System.run_fixed lasting
  intro event member receiver notified
  have emitted := mayEmit_perform member
  have goesTo : receiver = session.manager.currentInputMethod ∧
      receiver.isSome := by
    cases event with
    | onFocusLost inputMethod =>
        cases notified
        exact emitted
    | onTextChanged inputMethod text =>
        cases notified
        exact ⟨emitted.1, emitted.2.1⟩
    | _ => cases notified
  obtain ⟨inputMethod, some_⟩ := Option.isSome_iff_exists.mp goesTo.2
  exact ⟨inputMethod, current inputMethod (goesTo.1 ▸ some_), some_⟩

private theorem next_lasting {session : Session} {operation : Operation}
    (notCreated : ∀ inputMethod, operation ≠ .createInputMethod inputMethod)
    (notDestroyed : ∀ inputMethod, operation ≠ .destroyInputMethod inputMethod)
    {event : Event} (member : event ∈ session.respond operation) :
    lifetimes.next session.live event = session.live := by
  have emitted := mayEmit_perform member
  cases event with
  | created inputMethod => exact (notCreated inputMethod emitted).elim
  | deleted inputMethod => exact (notDestroyed inputMethod emitted).elim
  | _ => rfl

private theorem alive_lasting {session : Session} {operation : Operation}
    (alive : Alive session)
    (notCreated : ∀ inputMethod, operation ≠ .createInputMethod inputMethod)
    (notDestroyed : ∀ inputMethod, operation ≠ .destroyInputMethod inputMethod)
    (current : session.Valid
      (session.next operation).manager.currentInputMethod) :
    Alive (session.next operation) := by
  have lasting : ∀ event ∈ session.respond operation,
      lifetimes.next session.live event = session.live :=
    fun _ member => next_lasting notCreated notDestroyed member
  have live : (session.next operation).live = session.live := by
    rw [live_next, System.after_fixed lasting]
  constructor
  · rw [Session.Valid, live]
    exact current
  · rw [trace_next, System.run_append]
    exact ⟨alive.notified, run_respond alive.current lasting⟩

private theorem alive_createInputMethod {session : Session}
    (alive : Alive session) (inputMethod : InputMethod) :
    Alive (session.next (.createInputMethod inputMethod)) := by
  constructor
  · intro pointee member
    rw [live_next]
    exact Finset.mem_insert_of_mem (alive.current pointee member)
  · rw [trace_next, System.run_append]
    exact ⟨alive.notified, by simp [lifetimes, Event.notifies], trivial⟩

private theorem alive_destroyInputMethod {session : Session}
    (alive : Alive session) (inputMethod : Option InputMethod) :
    Alive (session.next (.destroyInputMethod inputMethod)) := by
  have stopped : ∀ event ∈ (stopInputMethodApplicationIfNeeded
      { session.manager with currentInputMethod := none }).2,
      event = .stopApp := fun _ member => eq_of_mem_stop member
  have after : lifetimes.after session.live
      (session.respond (.destroyInputMethod inputMethod)) =
        lifetimes.next session.live (.deleted inputMethod) := by
    simp only [Session.respond, perform, destroyInputMethod,
      System.after_append]
    split
    · have kept : lifetimes.after session.live
          (stopInputMethodApplicationIfNeeded
            { session.manager with currentInputMethod := none }).2 =
          session.live :=
        System.after_fixed fun event member => stopped event member ▸ rfl
      rw [kept]
      rfl
    · rfl
  constructor
  · intro pointee member
    rw [live_next, after]
    simp only [manager_next, perform, destroyInputMethod_fields] at member
    split at member
    · cases member
    · rename_i other
      have exists_ := alive.current pointee member
      cases inputMethod with
      | none => exact exists_
      | some deleted =>
          refine Finset.mem_erase.mpr ⟨?_, exists_⟩
          rintro rfl
          exact other member
  · rw [trace_next, System.run_append]
    refine ⟨alive.notified, ?_⟩
    simp only [Session.respond, perform, destroyInputMethod,
      System.run_append]
    refine ⟨System.run_unguarded fun live event member => ?_,
      by simp [lifetimes, Event.notifies], trivial⟩
    split at member
    · rw [stopped event member]
      simp [lifetimes, Event.notifies]
    · cases member

theorem alive_next (session : Session) (operation : Operation)
    (alive : Alive session) (isEnabled : session.Enabled operation) :
    Alive (session.next operation) := by
  cases operation with
  | createInputMethod inputMethod =>
      exact alive_createInputMethod alive inputMethod
  | destroyInputMethod inputMethod =>
      exact alive_destroyInputMethod alive inputMethod
  | require inputMethod initialText =>
      apply alive_lasting alive (by simp) (by simp)
      simp only [manager_next, perform, require_fields]
      exact isEnabled.2
  | bindController controller =>
      apply alive_lasting alive (by simp) (by simp)
      simp only [manager_next, perform, bindController_fields]
      exact alive.current
  | unbindController controller =>
      apply alive_lasting alive (by simp) (by simp)
      simp only [manager_next, perform, unbindController_fields]
      split <;> exact alive.current
  | updateInputText text =>
      apply alive_lasting alive (by simp) (by simp)
      simp only [manager_next, perform, updateInputText_fields]
      split <;> exact alive.current
  | destructor => exact alive_lasting alive (by simp) (by simp) alive.current

private theorem copies_start (held : Copies) (manager : InputMethodManager) :
    copies.after held manager.startInputMethodApplicationIfNeeded.2 = held :=
  System.after_fixed fun _ member => eq_of_mem_start member ▸ rfl

private theorem copies_stop (held : Copies) (manager : InputMethodManager) :
    copies.after held manager.stopInputMethodApplicationIfNeeded.2 = held :=
  System.after_fixed fun _ member => eq_of_mem_stop member ▸ rfl

private theorem agrees_updateInitialText {held : Copies}
    {manager : InputMethodManager}
    (text : ∀ inputMethod, manager.currentInputMethod = some inputMethod →
      held.text inputMethod = some manager.cachedInitialText) :
    Agrees manager (copies.after held manager.updateInitialText) := by
  rw [updateInitialText]
  cases bound : manager.currentInputMethodController with
  | none => exact ⟨text, fun _ _ _ impossible => by simp [bound] at impossible⟩
  | some controller =>
      refine ⟨text, fun inputMethod other _ isBound => ?_⟩
      rw [bound, Option.some.injEq] at isBound
      subst isBound
      simp [copies]

private theorem agrees_require {manager : InputMethodManager} (held : Copies)
    (inputMethod : Option InputMethod) (initialText : Text) :
    Agrees (manager.require inputMethod initialText).1
      (copies.after held (manager.require inputMethod initialText).2) := by
  simp only [require, System.after_append, System.after_cons, copies_start,
    start_fields]
  apply agrees_updateInitialText
  intro pointee current
  simp only at current
  subst current
  simp [copies]

private theorem agrees_bindController {manager : InputMethodManager}
    {held : Copies} (agrees : Agrees manager held)
    (controller : Option InputMethodController) :
    Agrees (manager.bindController controller).1
      (copies.after held (manager.bindController controller).2) := by
  simp only [bindController]
  split
  · exact agrees
  · have quiet : copies.after held
        ((if manager.currentInputMethodController.isSome then
            [Event.unbind manager.currentInputMethodController] else []) ++
          if controller.isSome then [Event.bind controller] else []) =
        held := by
      split <;> split <;> rfl
    rw [System.after_append, quiet]
    exact agrees_updateInitialText agrees.text

private theorem agrees_destroyInputMethod {manager : InputMethodManager}
    {held : Copies} (agrees : Agrees manager held)
    (inputMethod : Option InputMethod) :
    Agrees (manager.destroyInputMethod inputMethod).1
      (copies.after held (manager.destroyInputMethod inputMethod).2) := by
  simp only [destroyInputMethod, System.after_append]
  split
  · rw [copies_stop, stop_fields]
    exact ⟨by simp, by simp⟩
  · exact agrees

private theorem agrees_unbindController {manager : InputMethodManager}
    {held : Copies} (agrees : Agrees manager held)
    (controller : Option InputMethodController) :
    Agrees (manager.unbindController controller).1
      (copies.after held (manager.unbindController controller).2) := by
  simp only [unbindController, ne_eq, ite_not]
  split
  · have quiet : copies.after held
        (.unbind manager.currentInputMethodController ::
          if manager.currentInputMethod.isSome then
            [Event.onFocusLost manager.currentInputMethod] else []) = held := by
      split <;> rfl
    rw [quiet]
    exact ⟨agrees.text, by simp⟩
  · exact agrees

private theorem agrees_updateInputText (manager : InputMethodManager)
    (held : Copies) (text : Text) :
    Agrees (manager.perform (.updateInputText text)).1
      (copies.after held (manager.perform (.updateInputText text)).2) := by
  simp only [perform, updateInputText, System.after_cons]
  cases current : manager.currentInputMethod with
  | none => exact ⟨by simp [current], by simp [current]⟩
  | some inputMethod =>
      refine ⟨fun pointee isCurrent => ?_,
        fun pointee controller _ isBound => ?_⟩
      · have same : inputMethod = pointee := by simpa [current] using isCurrent
        subst same
        simp [copies]
      · have bound : manager.currentInputMethodController =
            some controller := by simpa using isBound
        simp [copies, bound]

theorem agrees_next (session : Session) (operation : Operation)
    (alive : Alive session) (agrees : Agrees session.manager session.copies)
    (isEnabled : session.Enabled operation) :
    Agrees (session.next operation).manager
      (session.next operation).copies := by
  rw [copies_next]
  cases operation with
  | createInputMethod inputMethod =>
      refine ⟨fun pointee current => ?_, agrees.view⟩
      have exists_ := alive.current pointee current
      have other : pointee ≠ inputMethod := by
        rintro rfl
        exact isEnabled.2 exists_
      have kept := agrees.text pointee current
      simpa [copies, Session.respond, perform, createInputMethod, other]
        using kept
  | destroyInputMethod inputMethod =>
      exact agrees_destroyInputMethod agrees inputMethod
  | require inputMethod initialText =>
      exact agrees_require session.copies inputMethod initialText
  | bindController controller => exact agrees_bindController agrees controller
  | unbindController controller =>
      exact agrees_unbindController agrees controller
  | updateInputText text => exact agrees_updateInputText _ _ text
  | destructor =>
      have quiet : copies.after session.copies session.manager.destructor =
          session.copies := by
        rw [destructor]
        split <;> split <;> rfl
      rw [Session.respond, perform, quiet]
      exact agrees

theorem alive_and_agrees {session : Session}
    (reachable : system.Reachable session) :
    Alive session ∧ Agrees session.manager session.copies := by
  apply reachable.invariant
  · have noCurrent : system.start.manager.currentInputMethod = none := rfl
    refine ⟨⟨?_, trivial⟩, ?_, ?_⟩ <;> simp [noCurrent, Session.Valid]
  · intro session operation known isEnabled
    exact ⟨alive_next session operation known.1 isEnabled,
      agrees_next session operation known.1 known.2 isEnabled⟩

/-- In every reachable session the current input method exists or is null and
no call went to a destroyed one.  The text of the current input method is the
cached one, the view of a bound controller is the same, and a controller bound
next gets it. -/
theorem text_agreement {session : Session}
    (reachable : system.Reachable session) :
    session.Valid session.manager.currentInputMethod ∧
      lifetimes.Run ∅ session.trace ∧
      ∀ inputMethod, session.manager.currentInputMethod = some inputMethod →
        session.copies.text inputMethod =
            some session.manager.cachedInitialText ∧
          (∀ controller,
            session.manager.currentInputMethodController = some controller →
              session.copies.view controller =
                some session.manager.cachedInitialText) ∧
          ∀ controller,
            (session.next (.bindController (some controller))).copies.view
              controller = session.copies.text inputMethod := by
  obtain ⟨alive, agrees⟩ := alive_and_agrees reachable
  refine ⟨alive.current, alive.notified, fun inputMethod current => ?_⟩
  refine ⟨agrees.text inputMethod current,
    fun controller bound => agrees.view inputMethod controller current bound,
    fun controller => ?_⟩
  have bound := agrees_bindController agrees (some controller)
  rw [bindController_fields] at bound
  rw [copies_next, agrees.text inputMethod current]
  exact bound.view inputMethod controller current rfl

/-- The current input method is destroyed, and a text is submitted to the next
one before the controller is replaced. -/
theorem text_agreement_rebound :
    let session := system.after system.start
      [.createInputMethod 0, .createInputMethod 1, .bindController (some 7),
        .require (some 1) "z".toList, .destroyInputMethod (some 1),
        .require (some 0) "a".toList, .updateInputText "ab".toList,
        .unbindController (some 7)]
    lifetimes.Run ∅ session.trace ∧
      session.copies.text 0 = some "ab".toList ∧
      (session.next (.bindController (some 8))).copies.view 8 =
        some "ab".toList := by
  intro session
  have reachable : system.Reachable session := ⟨_, by decide, rfl⟩
  obtain ⟨_, lifetime, agreement⟩ := text_agreement reachable
  obtain ⟨text, _, view⟩ := agreement 0 rfl
  exact ⟨lifetime, text, (view 8).trans text⟩

end QuickApp.TextInput
