import Mathlib.Data.Finset.Card
import QuickApp.TextInput.Manager

/-!
# The focus protocol

Focus is read off the trace: `Require` gives it to an input method, and
`OnFocusLost` and the destruction of the input method take it away.  The
manager itself only keeps `current_input_method_`, which `UnbindController`
does not clear after its `OnFocusLost`.  From then on until the next `Require`
the current input method has no focus, and an operation that notifies it
breaks the protocol.
-/

namespace QuickApp.TextInput

/-- The focused input methods after an event. -/
def focusAfter (focused : Finset InputMethod) : Event → Finset InputMethod
  | .required (some inputMethod) _ => insert inputMethod focused
  | .onFocusLost (some inputMethod) => focused.erase inputMethod
  | .deleted (some inputMethod) => focused.erase inputMethod
  | _ => focused

/-- At most one input method has focus, and only a focused one is notified. -/
def focusProtocol : System (Finset InputMethod) Event where
  start := ∅
  enabled focused event :=
    (focusAfter focused event).card ≤ 1 ∧
      ∀ receiver ∈ event.notifies,
        ∃ inputMethod ∈ focused, receiver = some inputMethod
  next := focusAfter

instance focusProtocol.decidableEnabled (focused : Finset InputMethod)
    (event : Event) : Decidable (focusProtocol.enabled focused event) :=
  inferInstanceAs (Decidable (_ ≤ _ ∧ ∀ receiver ∈ event.notifies, _))

/-- The focused input methods of a session. -/
def Session.focused (session : Session) : Finset InputMethod :=
  focusProtocol.after ∅ session.trace

/-- The operation takes the focus away from an input method that has it. -/
def Displaces (session : Session) (inputMethod : InputMethod) :
    Operation → Prop
  | .require other _ => other ≠ some inputMethod
  | .unbindController controller =>
      session.manager.currentInputMethodController = controller
  | .destructor => True
  | _ => False

instance Displaces.decidable (session : Session)
    (inputMethod : InputMethod) :
    ∀ operation, Decidable (Displaces session inputMethod operation)
  | .require _ _ => inferInstanceAs (Decidable (_ ≠ _))
  | .unbindController _ => inferInstanceAs (Decidable (_ = _))
  | .destructor => .isTrue trivial
  | .createInputMethod _ => .isFalse id
  | .destroyInputMethod _ => .isFalse id
  | .bindController _ => .isFalse id
  | .updateInputText _ => .isFalse id

/-- One operation follows the protocol: event by event, and with exactly one
`OnFocusLost` for a focused input method that it displaces. -/
def FollowsProtocol (session : Session) (operation : Operation) : Prop :=
  focusProtocol.Run session.focused (session.respond operation) ∧
    ∀ inputMethod ∈ session.focused,
      Displaces session inputMethod operation →
        (session.respond operation).count (.onFocusLost (some inputMethod)) = 1

instance FollowsProtocol.decidable (session : Session)
    (operation : Operation) : Decidable (FollowsProtocol session operation) :=
  inferInstanceAs (Decidable (_ ∧ _))

/-- The bound controller was unbound by `UnbindController` since the latest
`Require`. -/
def blurred : List Record → Bool
  | [] => false
  | record :: earlier =>
      match record.operation with
      | .require _ _ => false
      | .unbindController controller =>
          record.before.currentInputMethodController == controller ||
            blurred earlier
      | .destructor => true
      | _ => blurred earlier

/-- The operations that notify the current input method. -/
def Notifies (session : Session) : Operation → Prop
  | .require inputMethod _ => session.manager.currentInputMethod ≠ inputMethod
  | .unbindController controller =>
      session.manager.currentInputMethodController = controller
  | .updateInputText _ => True
  | .destructor => True
  | _ => False

/-- The current input method is not notified between an `UnbindController` of
the bound controller and the next `Require`. -/
def NotBlurred (session : Session) (operation : Operation) : Prop :=
  Notifies session operation → session.manager.currentInputMethod ≠ none →
    blurred session.history = false

/-- The current input method, unless it lost focus without being replaced. -/
def holder (session : Session) : Option InputMethod :=
  if blurred session.history then none else session.manager.currentInputMethod

/-- Events that neither notify an input method nor move the focus. -/
def Event.keepsFocus : Event → Bool
  | .required _ _ => false
  | .onFocusLost _ => false
  | .onTextChanged _ _ => false
  | .deleted _ => false
  | _ => true

section Quiet

variable {focused : Finset InputMethod} {events : List Event}

private theorem next_quiet {event : Event} (quiet : event.keepsFocus) :
    focusProtocol.next focused event = focused := by
  cases event <;> first | rfl | cases quiet

private theorem enabled_quiet {event : Event} (quiet : event.keepsFocus) :
    focusProtocol.enabled focused event ↔ focused.card ≤ 1 := by
  have same : focusAfter focused event = focused := next_quiet quiet
  have silent : event.notifies = none := by
    cases event <;> first | rfl | cases quiet
  simp [focusProtocol, same, silent]

theorem after_quiet (quiet : events.all Event.keepsFocus) :
    focusProtocol.after focused events = focused :=
  System.after_fixed fun event member =>
    next_quiet (List.all_eq_true.mp quiet event member)

theorem count_quiet (quiet : events.all Event.keepsFocus)
    (inputMethod : Option InputMethod) :
    events.count (.onFocusLost inputMethod) = 0 := by
  rw [List.count_eq_zero]
  intro member
  have kept := List.all_eq_true.mp quiet _ member
  cases kept

theorem run_quiet (quiet : events.all Event.keepsFocus)
    (single : focused.card ≤ 1) : focusProtocol.Run focused events :=
  System.run_fixed
    (fun event member => next_quiet (List.all_eq_true.mp quiet event member))
    (fun event member => (enabled_quiet
      (List.all_eq_true.mp quiet event member)).mpr single)

end Quiet

section ManagerEvents

variable (manager : InputMethodManager)

theorem quiet_updateInitialText :
    manager.updateInitialText.all Event.keepsFocus :=
  List.all_eq_true.mpr fun _ member =>
    InputMethodManager.eq_of_mem_updateInitialText member ▸ rfl

theorem quiet_start :
    manager.startInputMethodApplicationIfNeeded.2.all Event.keepsFocus :=
  List.all_eq_true.mpr fun _ member =>
    InputMethodManager.eq_of_mem_start member ▸ rfl

theorem quiet_stop :
    manager.stopInputMethodApplicationIfNeeded.2.all Event.keepsFocus :=
  List.all_eq_true.mpr fun _ member =>
    InputMethodManager.eq_of_mem_stop member ▸ rfl

theorem quiet_bindController (controller : Option InputMethodController) :
    (manager.bindController controller).2.all Event.keepsFocus := by
  have updated := quiet_updateInitialText
    { manager with currentInputMethodController := controller }
  simp only [InputMethodManager.bindController]
  split
  · rfl
  · rw [List.all_append, updated, Bool.and_true]
    split <;> split <;> rfl

end ManagerEvents

section Blur

variable {owner current : Option InputMethod}

theorem card_toFinset_le_one (owner : Option InputMethod) :
    owner.toFinset.card ≤ 1 := by
  cases owner <;> simp

theorem after_blur (owned : owner = none ∨ owner = current) :
    focusProtocol.after owner.toFinset
      (if current.isSome then [.onFocusLost current] else []) = ∅ := by
  cases current with
  | none =>
      have empty : owner = none := by simpa using owned
      simp [empty]
  | some inputMethod =>
      rcases owned with rfl | rfl <;> simp [focusProtocol, focusAfter]

theorem run_blur (owned : owner = none ∨ owner = current) :
    focusProtocol.Run owner.toFinset
        (if current.isSome then [.onFocusLost current] else []) ↔
      (current ≠ none → owner = current) := by
  cases current with
  | none => simp [System.Run]
  | some inputMethod =>
      rcases owned with rfl | rfl <;>
        simp [System.Run, focusProtocol, focusAfter, Event.notifies]

theorem count_blur {inputMethod : InputMethod}
    (owned : owner = none ∨ owner = current)
    (member : inputMethod ∈ owner.toFinset) :
    (if current.isSome then [Event.onFocusLost current] else []).count
      (.onFocusLost (some inputMethod)) = 1 := by
  have owns : owner = some inputMethod := by simpa using member
  rcases owned with nobody | same
  · simp [nobody] at owns
  · simp [← same, owns]

end Blur

theorem holder_eq_none_or (session : Session) :
    holder session = none ∨
      holder session = session.manager.currentInputMethod := by
  rw [holder]
  split <;> simp

/-- `NotBlurred` says that the current input method has focus. -/
theorem current_has_focus_iff (session : Session) :
    (session.manager.currentInputMethod ≠ none →
        blurred session.history = false) ↔
      (session.manager.currentInputMethod ≠ none →
        holder session = session.manager.currentInputMethod) := by
  apply imp_congr_right
  intro present
  rw [holder]
  cases blurred session.history <;> simp [Ne.symm present]

/-- The focus is where `holder` says. -/
def FocusKnown (session : Session) : Prop :=
  session.focused = (holder session).toFinset

section Operations

variable {session : Session}

theorem focused_next (session : Session) (operation : Operation) :
    (session.next operation).focused =
      focusProtocol.after session.focused (session.respond operation) := by
  rw [Session.focused, trace_next, System.after_append, ← Session.focused]

private theorem focusAfter_required {owner inputMethod : Option InputMethod}
    (owned : owner = none ∨ owner = inputMethod) (initialText : Text) :
    focusAfter owner.toFinset (.required inputMethod initialText) =
      inputMethod.toFinset := by
  rcases owned with rfl | rfl
  · cases inputMethod <;> rfl
  · cases owner <;> simp [focusAfter]

private theorem after_require {owner : Option InputMethod}
    {manager : InputMethodManager}
    (owned : owner = none ∨ owner = manager.currentInputMethod)
    (inputMethod : Option InputMethod) (initialText : Text) :
    focusProtocol.after owner.toFinset
        (manager.require inputMethod initialText).2 = inputMethod.toFinset := by
  have started := quiet_start
    { manager with
      currentInputMethod := inputMethod
      cachedInitialText := initialText }
  have updated := fun manager => quiet_updateInitialText manager
  simp only [InputMethodManager.require, System.after_append,
    System.after_cons, after_quiet (updated _), after_quiet started]
  by_cases same : manager.currentInputMethod = inputMethod
  · rw [same] at owned
    simpa [same, focusProtocol] using focusAfter_required owned initialText
  · have lost := after_blur owned
    simp only [same, ne_eq, not_false_eq_true, and_true] at lost ⊢
    rw [lost]
    exact focusAfter_required (Or.inl rfl) initialText

private theorem after_destroyInputMethod {owner : Option InputMethod}
    {manager : InputMethodManager} (inputMethod : Option InputMethod) :
    focusProtocol.after owner.toFinset
        (manager.destroyInputMethod inputMethod).2 =
      (if owner = inputMethod then none else owner).toFinset := by
  have stopped := quiet_stop { manager with currentInputMethod := none }
  have deleted : focusProtocol.after owner.toFinset [.deleted inputMethod] =
      (if owner = inputMethod then none else owner).toFinset := by
    cases inputMethod with
    | none => cases owner <;> rfl
    | some pointee =>
        by_cases same : owner = some pointee
        · simp [same, focusProtocol, focusAfter]
        · have outside : pointee ∉ owner.toFinset := by simpa using same
          simp [same, focusProtocol, focusAfter, outside]
  simp only [InputMethodManager.destroyInputMethod, System.after_append]
  split
  · rw [after_quiet stopped, deleted]
  · exact deleted

private theorem after_unbindController {owner : Option InputMethod}
    {manager : InputMethodManager}
    (owned : owner = none ∨ owner = manager.currentInputMethod)
    (controller : Option InputMethodController) :
    focusProtocol.after owner.toFinset
        (manager.unbindController controller).2 =
      (if manager.currentInputMethodController = controller then none
        else owner).toFinset := by
  simp only [InputMethodManager.unbindController, ne_eq, ite_not]
  split
  · exact after_blur owned
  · rfl

private theorem after_destructor {owner : Option InputMethod}
    {manager : InputMethodManager}
    (owned : owner = none ∨ owner = manager.currentInputMethod) :
    focusProtocol.after owner.toFinset manager.destructor = ∅ := by
  rw [InputMethodManager.destructor, System.after_append, after_blur owned]
  split <;> rfl

private theorem after_updateInputText {focused : Finset InputMethod}
    {manager : InputMethodManager} (text : Text) :
    focusProtocol.after focused (manager.updateInputText text).2 =
      focused := by
  rw [InputMethodManager.updateInputText]
  split <;> rfl

theorem focusKnown_next (session : Session) (operation : Operation)
    (known : FocusKnown session) : FocusKnown (session.next operation) := by
  have owned := holder_eq_none_or session
  rw [FocusKnown, focused_next, known, Session.respond]
  cases operation with
  | createInputMethod inputMethod => rfl
  | destroyInputMethod inputMethod =>
      rw [InputMethodManager.perform, after_destroyInputMethod]
      simp only [holder, Session.next, blurred, InputMethodManager.perform,
        InputMethodManager.destroyInputMethod_fields]
      split <;> split <;> simp_all
  | require inputMethod initialText =>
      rw [InputMethodManager.perform, after_require owned]
      simp [holder, Session.next, blurred, InputMethodManager.perform,
        InputMethodManager.require_fields]
  | bindController controller =>
      rw [InputMethodManager.perform, after_quiet (quiet_bindController _ _)]
      simp [holder, Session.next, blurred, InputMethodManager.perform,
        InputMethodManager.bindController_fields]
  | unbindController controller =>
      rw [InputMethodManager.perform, after_unbindController owned]
      simp only [holder, Session.next, blurred, InputMethodManager.perform,
        InputMethodManager.unbindController_fields]
      split <;> simp_all
  | updateInputText text =>
      simp only [InputMethodManager.perform, System.after_cons]
      rw [after_updateInputText]
      have current : (session.manager.updateInputText text).1.currentInputMethod
          = session.manager.currentInputMethod := by
        rw [InputMethodManager.updateInputText_fields]
        split <;> rfl
      simp only [holder, Session.next, blurred, InputMethodManager.perform,
        current]
      rfl
  | destructor =>
      rw [InputMethodManager.perform, after_destructor owned]
      simp [holder, Session.next, blurred]

/-- After the assignment only the new input method has focus, and the rest of
`Require` keeps it. -/
private theorem run_assigned {focused : Finset InputMethod}
    {inputMethod : Option InputMethod} {initialText : Text}
    {events : List Event}
    (assigned : focusAfter focused (.required inputMethod initialText) =
      inputMethod.toFinset)
    (quiet : events.all Event.keepsFocus) :
    focusProtocol.Run focused
      (.required inputMethod initialText :: events) := by
  have single := card_toFinset_le_one inputMethod
  have kept : focusProtocol.Run
      (focusAfter focused (.required inputMethod initialText)) events := by
    rw [assigned]
    exact run_quiet quiet single
  exact ⟨⟨assigned ▸ single, by simp [Event.notifies]⟩, kept⟩

private theorem run_require {owner : Option InputMethod}
    {manager : InputMethodManager}
    (owned : owner = none ∨ owner = manager.currentInputMethod)
    (inputMethod : Option InputMethod) (initialText : Text) :
    focusProtocol.Run owner.toFinset
        (manager.require inputMethod initialText).2 ↔
      (manager.currentInputMethod ≠ inputMethod →
        manager.currentInputMethod ≠ none →
        owner = manager.currentInputMethod) := by
  have started := quiet_start
    { manager with
      currentInputMethod := inputMethod
      cachedInitialText := initialText }
  have updated := fun manager => quiet_updateInitialText manager
  simp only [InputMethodManager.require, List.append_assoc, List.cons_append,
    System.run_append]
  by_cases same : manager.currentInputMethod = inputMethod
  · rw [same] at owned
    refine iff_of_true ⟨by simp [same, System.Run], ?_⟩
      fun differs => (differs same).elim
    apply run_assigned
    · simpa [same] using focusAfter_required owned initialText
    · simp [started, updated]
  · have lost := after_blur owned
    have running := run_blur owned
    simp only [same, ne_eq, not_false_eq_true, and_true,
      true_imp_iff] at lost running ⊢
    rw [running, lost]
    apply and_iff_left
    apply run_assigned
    · exact focusAfter_required (Or.inl rfl) initialText
    · simp [started, updated]

private theorem count_require {owner : Option InputMethod}
    {manager : InputMethodManager}
    (owned : owner = none ∨ owner = manager.currentInputMethod)
    {inputMethod : InputMethod} (member : inputMethod ∈ owner.toFinset)
    {other : Option InputMethod} (displaced : other ≠ some inputMethod)
    (initialText : Text) :
    (manager.require other initialText).2.count
      (.onFocusLost (some inputMethod)) = 1 := by
  have owns : owner = some inputMethod := by simpa using member
  have current : manager.currentInputMethod ≠ other := by
    rcases owned with nobody | same
    · simp [nobody] at owns
    · rw [← same, owns]
      exact displaced.symm
  have started := quiet_start
    { manager with
      currentInputMethod := other
      cachedInitialText := initialText }
  have updated := fun manager => quiet_updateInitialText manager
  have lost := count_blur owned member
  simp only [InputMethodManager.require, current, ne_eq, not_false_eq_true,
    and_true, List.count_append, List.count_cons, count_quiet started,
    count_quiet (updated _), lost]
  rfl

private theorem run_destroyInputMethod {owner : Option InputMethod}
    {manager : InputMethodManager} (inputMethod : Option InputMethod) :
    focusProtocol.Run owner.toFinset
      (manager.destroyInputMethod inputMethod).2 := by
  have stopped := quiet_stop { manager with currentInputMethod := none }
  have single := card_toFinset_le_one owner
  have deleted : focusProtocol.Run owner.toFinset [.deleted inputMethod] := by
    refine ⟨⟨?_, by simp [Event.notifies]⟩, trivial⟩
    cases inputMethod with
    | none => exact single
    | some pointee =>
        exact (Finset.card_le_card (Finset.erase_subset _ _)).trans single
  simp only [InputMethodManager.destroyInputMethod, System.run_append]
  split
  · exact ⟨run_quiet stopped single, by rwa [after_quiet stopped]⟩
  · exact ⟨trivial, deleted⟩

private theorem run_destructor {owner : Option InputMethod}
    {manager : InputMethodManager}
    (owned : owner = none ∨ owner = manager.currentInputMethod) :
    focusProtocol.Run owner.toFinset manager.destructor ↔
      (manager.currentInputMethod ≠ none →
        owner = manager.currentInputMethod) := by
  rw [InputMethodManager.destructor, System.run_append, run_blur owned,
    after_blur owned]
  apply and_iff_left
  split
  · exact run_quiet rfl (Nat.zero_le 1)
  · trivial

private theorem run_unbindController {owner : Option InputMethod}
    {manager : InputMethodManager}
    (owned : owner = none ∨ owner = manager.currentInputMethod)
    (controller : Option InputMethodController) :
    focusProtocol.Run owner.toFinset
        (manager.unbindController controller).2 ↔
      (manager.currentInputMethodController = controller →
        manager.currentInputMethod ≠ none →
        owner = manager.currentInputMethod) := by
  rw [InputMethodManager.unbindController]
  by_cases bound : manager.currentInputMethodController = controller
  · rw [if_neg (not_not_intro bound), ← run_blur owned]
    simp only [bound, true_imp_iff]
    exact and_iff_right
      ((enabled_quiet rfl).mpr (card_toFinset_le_one owner))
  · simp [bound, System.Run]

private theorem run_updateInputText {owner : Option InputMethod}
    {manager : InputMethodManager}
    (owned : owner = none ∨ owner = manager.currentInputMethod)
    (text : Text) :
    focusProtocol.Run owner.toFinset (manager.updateInputText text).2 ↔
      (manager.currentInputMethod ≠ none →
        owner = manager.currentInputMethod) := by
  rw [InputMethodManager.updateInputText]
  cases current : manager.currentInputMethod with
  | none => simp [System.Run]
  | some inputMethod =>
      rcases owned with nobody | itself
      · simp [nobody, System.Run, focusProtocol, Event.notifies]
      · simp [itself, current, System.Run, focusProtocol, focusAfter,
          Event.notifies]

/-- An operation follows the protocol exactly when it does not notify a
current input method that lost its focus. -/
theorem followsProtocol_iff (session : Session) (operation : Operation)
    (known : FocusKnown session) :
    FollowsProtocol session operation ↔ NotBlurred session operation := by
  have owned := holder_eq_none_or session
  have single := card_toFinset_le_one (holder session)
  have hasFocus := current_has_focus_iff session
  rw [FollowsProtocol, NotBlurred, hasFocus, known, Session.respond]
  cases operation with
  | createInputMethod inputMethod =>
      refine iff_of_true ⟨?_, fun _ _ => False.elim⟩ False.elim
      exact run_quiet rfl single
  | destroyInputMethod inputMethod =>
      exact iff_of_true ⟨run_destroyInputMethod _, fun _ _ => False.elim⟩
        False.elim
  | require other initialText =>
      rw [InputMethodManager.perform, run_require owned]
      exact and_iff_left fun inputMethod member displaced =>
        count_require owned member displaced initialText
  | bindController controller =>
      refine iff_of_true ⟨?_, fun _ _ => False.elim⟩ False.elim
      exact run_quiet (quiet_bindController _ _) single
  | unbindController controller =>
      rw [InputMethodManager.perform, run_unbindController owned]
      apply and_iff_left
      intro inputMethod member displaced
      have bound : session.manager.currentInputMethodController =
          controller := displaced
      rw [InputMethodManager.unbindController, if_neg (not_not_intro bound)]
      simpa using count_blur owned member
  | updateInputText text =>
      apply (and_iff_left fun _ _ => False.elim).trans
      rw [show Notifies session (.updateInputText text) = True from rfl,
        true_imp_iff, ← run_updateInputText owned text]
      exact and_iff_right ((enabled_quiet rfl).mpr single)
  | destructor =>
      rw [InputMethodManager.perform, run_destructor owned,
        show Notifies session .destructor = True from rfl, true_imp_iff]
      apply and_iff_left
      intro inputMethod member _
      rw [InputMethodManager.destructor, List.count_append,
        count_blur owned member]
      split <;> rfl

end Operations

theorem focusKnown_start : FocusKnown system.start := rfl

/-- Along every run the focus protocol is followed if and only if no input
method is notified after it lost focus by `UnbindController` and before the
next `Require`. -/
theorem focus_protocol_iff {operations : List Operation}
    (run : system.Run system.start operations) :
    system.AllSteps FollowsProtocol system.start operations ↔
      system.AllSteps NotBlurred system.start operations :=
  run.allSteps_congr (fun session operation known _ _ =>
      focusKnown_next session operation known)
    (fun session operation known _ =>
      followsProtocol_iff session operation known)
    focusKnown_start

/-- Two fields, one controller and a change of focus. -/
theorem focus_protocol_two_fields :
    system.AllSteps FollowsProtocol system.start
      [.createInputMethod 0, .createInputMethod 1,
        .require (some 0) "a".toList, .bindController (some 7),
        .require (some 1) "b".toList, .updateInputText "bc".toList] := by
  apply (focus_protocol_iff (by decide)).mpr
  refine ⟨False.elim, False.elim, ?_, False.elim, ?_, ?_, trivial⟩ <;>
    exact fun _ _ => rfl

/-- After `UnbindController` the first input method loses its focus a second
time when the second one is required. -/
theorem focus_lost_twice :
    system.Run system.start
        [.createInputMethod 0, .createInputMethod 1, .require (some 0) [],
          .bindController (some 7), .unbindController (some 7),
          .require (some 1) []] ∧
      ¬system.AllSteps FollowsProtocol system.start
        [.createInputMethod 0, .createInputMethod 1, .require (some 0) [],
          .bindController (some 7), .unbindController (some 7),
          .require (some 1) []] := by
  decide

end QuickApp.TextInput
