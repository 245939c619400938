import Mathlib.Data.List.TakeWhile
import QuickApp.Permission.Name
import QuickApp.TextInput.Text

/-!
# Input contexts

The UI framework reaches the input method manager through a table of C
functions, `vg_input_context_ops_t`.  Behind a context there is an
`InputMethod` with two `std::function` fields; what the UI sets there is a
function pointer, wrapped in a closure that calls it with a C string.

A desk is a session of the manager with the fields of the input methods and
what their fields on the screen show.
-/

namespace QuickApp.TextInput

open QuickApp.Permission (CString nul)

/-- A `vg_input_text_changed_callback` or `vg_input_focus_lost_callback`; the
null pointer is `none`. -/
abbrev Callback := Option Nat

/-- What a C function sees of `text.c_str()`. -/
def cStr (text : Text) : Text :=
  text.takeWhile (· ≠ nul)

theorem cStr_eq_self_iff (text : Text) : cStr text = text ↔ nul ∉ text := by
  rw [cStr, List.takeWhile_eq_self_iff]
  constructor
  · intro all member
    have different := all nul member
    simp at different
  · intro absent item member
    have different : item ≠ nul := fun same => absent (same ▸ member)
    simpa using different

/-- The fields of `InputMethod`.  An empty `std::function` is `none`; one made
by the setters is not empty, whatever pointer it holds. -/
structure InputMethodFields where
  userData : Nat := 0
  textChanged : Option Callback := none
  focusLost : Option Callback := none

/-- A call of a function of the UI. -/
inductive Notice where
  | textChanged (callback : Callback) (context : InputMethod) (text : Text)
  | focusLost (callback : Callback) (context : InputMethod)

/-- The functions of `input_context_ops`, and the other calls of the manager.
`create` carries the address that `new` returns. -/
inductive ContextOperation where
  | create (userData : Nat) (context : InputMethod)
  | destroy (context : Option InputMethod)
  | require (context : Option InputMethod) (initialText : Option CString)
  | getUserData (context : InputMethod)
  | setTextChanged (context : InputMethod) (callback : Callback)
  | setFocusLost (context : InputMethod) (callback : Callback)
  | bindController (controller : Option InputMethodController)
  | unbindController (controller : Option InputMethodController)
  | updateInputText (text : Text)
  | destructor

/-- A session, the fields of the input methods, the calls of the UI's
functions so far, what each field shows, and whether a null function was
called. -/
structure Desk where
  session : Session := {}
  fields : InputMethod → InputMethodFields := fun _ => {}
  notices : List Notice := []
  shown : InputMethod → Option Text := fun _ => none
  crashed : Bool := false

/-- `initial_text ? initial_text : ""`. -/
def initialText (initialText : Option CString) : Text :=
  match initialText with
  | none => []
  | some initialText => initialText.chars

/-- What the functions call on the manager. -/
def ContextOperation.onManager : ContextOperation → Option Operation
  | .create _ context => some (.createInputMethod context)
  | .destroy context => some (.destroyInputMethod context)
  | .require context text => some (.require context (initialText text))
  | .bindController controller => some (.bindController controller)
  | .unbindController controller => some (.unbindController controller)
  | .updateInputText text => some (.updateInputText text)
  | .destructor => some .destructor
  | _ => none

/-- The calls of `OnTextChanged` and `OnFocusLost`, with the closures of
`InputContextSetTextChanged` and `InputContextSetFocusLost`. -/
def notice (fields : InputMethod → InputMethodFields) : Event → Option Notice
  | .onTextChanged (some context) text =>
      (fields context).textChanged.map fun callback =>
        .textChanged callback context (cStr text)
  | .onFocusLost (some context) =>
      (fields context).focusLost.map fun callback =>
        .focusLost callback context
  | _ => none

/-- A null pointer is called. -/
def Notice.isNullCall : Notice → Bool
  | .textChanged callback _ _ => callback.isNone
  | .focusLost callback _ => callback.isNone

/-- What the fields show: the text a field is required with, and the texts its
function is called with. -/
def displays (fields : InputMethod → InputMethodFields) :
    System (InputMethod → Option Text) Event where
  start := fun _ => none
  enabled _ _ := True
  next shown
    | .created context => Function.update shown context none
    | .required (some context) text =>
        Function.update shown context (some text)
    | .onTextChanged (some context) text =>
        match (fields context).textChanged with
        | some (some _) => Function.update shown context (some (cStr text))
        | _ => shown
    | _ => shown

namespace Desk

variable (desk : Desk)

/-- The fields after a function that reaches an input method only. -/
def fieldsAfter : ContextOperation → InputMethod → InputMethodFields
  | .create userData context =>
      Function.update desk.fields context { userData }
  | .setTextChanged context callback =>
      Function.update desk.fields context
        { desk.fields context with textChanged := some callback }
  | .setFocusLost context callback =>
      Function.update desk.fields context
        { desk.fields context with focusLost := some callback }
  | _ => desk.fields

/-- The events of the manager for one function. -/
def respond (operation : ContextOperation) : List Event :=
  match operation.onManager with
  | none => []
  | some operation => desk.session.respond operation

/-- The calls of the UI's functions for one function. -/
def noticesOf (operation : ContextOperation) : List Notice :=
  (desk.respond operation).filterMap (notice desk.fields)

def next (operation : ContextOperation) : Desk where
  session :=
    match operation.onManager with
    | none => desk.session
    | some operation => desk.session.next operation
  fields := desk.fieldsAfter operation
  notices := desk.notices ++ desk.noticesOf operation
  shown := (displays desk.fields).after desk.shown (desk.respond operation)
  crashed := desk.crashed || (desk.noticesOf operation).any Notice.isNullCall

/-- Contexts are null or valid, or valid where a field is accessed, and the
table is there until the destructor takes it away. -/
def Enabled (operation : ContextOperation) : Prop :=
  desk.crashed = false ∧ desk.session.destructed = false ∧
    match operation.onManager with
    | some operation => desk.session.Enabled operation
    | none =>
        match operation with
        | .getUserData context => context ∈ desk.session.live
        | .setTextChanged context _ => context ∈ desk.session.live
        | .setFocusLost context _ => context ∈ desk.session.live
        | _ => True

instance Enabled.decidable (operation : ContextOperation) :
    Decidable (desk.Enabled operation) :=
  match operation with
  | .create _ context => inferInstanceAs (Decidable
      (_ ∧ _ ∧ desk.session.Enabled (.createInputMethod context)))
  | .destroy context => inferInstanceAs (Decidable
      (_ ∧ _ ∧ desk.session.Enabled (.destroyInputMethod context)))
  | .require context text => inferInstanceAs (Decidable
      (_ ∧ _ ∧ desk.session.Enabled (.require context (initialText text))))
  | .getUserData _ => inferInstanceAs (Decidable (_ ∧ _ ∧ _ ∈ _))
  | .setTextChanged _ _ => inferInstanceAs (Decidable (_ ∧ _ ∧ _ ∈ _))
  | .setFocusLost _ _ => inferInstanceAs (Decidable (_ ∧ _ ∧ _ ∈ _))
  | .bindController controller => inferInstanceAs (Decidable
      (_ ∧ _ ∧ desk.session.Enabled (.bindController controller)))
  | .unbindController controller => inferInstanceAs (Decidable
      (_ ∧ _ ∧ desk.session.Enabled (.unbindController controller)))
  | .updateInputText text => inferInstanceAs (Decidable
      (_ ∧ _ ∧ desk.session.Enabled (.updateInputText text)))
  | .destructor => inferInstanceAs (Decidable
      (_ ∧ _ ∧ desk.session.Enabled .destructor))

end Desk

/-- The runs of the UI and the controllers. -/
def desks : System Desk ContextOperation where
  start := {}
  enabled := Desk.Enabled
  next := Desk.next

instance desks.decidableEnabled (desk : Desk) (operation : ContextOperation) :
    Decidable (desks.enabled desk operation) :=
  Desk.Enabled.decidable desk operation

/-- A desk is a session of the manager. -/
def refinesSession : Refinement desks system where
  view := Desk.session
  labels _ operation := operation.onManager.toList
  invariant _ := True
  start_invariant := trivial
  next_invariant _ _ _ _ := trivial
  start_view := rfl
  step_run desk operation _ isEnabled := by
    obtain ⟨_, _, isEnabled⟩ := isEnabled
    cases called : operation.onManager with
    | none => trivial
    | some operation =>
        rw [called] at isEnabled
        exact ⟨isEnabled, trivial⟩
  step_view desk operation _ _ := by
    simp only [desks, Desk.next]
    cases operation.onManager with
    | none => rfl
    | some operation => rfl

/-- The field of the current input method shows the C string of the text the
manager keeps. -/
def Shows (desk : Desk) : Prop :=
  ∀ context, desk.session.manager.currentInputMethod = some context →
    desk.shown context = some (cStr desk.session.manager.cachedInitialText)

/-- No null function was called, and the field is up to date. -/
def UpToDate (desk : Desk) : Prop :=
  desk.crashed = false ∧ Shows desk

/-- The current input method is not told through a null pointer that it lost
the focus. -/
def NotLostThroughNull (desk : Desk) : Prop :=
  ∀ context, desk.session.manager.currentInputMethod = some context →
    (desk.fields context).focusLost ≠ some none

/-- A text goes to a function, or without one it is what the field shows
anyway. -/
def Delivered (desk : Desk) : ContextOperation → Prop
  | .updateInputText text =>
      ∀ context, desk.session.manager.currentInputMethod = some context →
        match (desk.fields context).textChanged with
        | some callback => callback ≠ none
        | none => cStr text = cStr desk.session.manager.cachedInitialText
  | .require context _ =>
      desk.session.manager.currentInputMethod ≠ context →
        NotLostThroughNull desk
  | .unbindController controller =>
      desk.session.manager.currentInputMethodController = controller →
        NotLostThroughNull desk
  | .destructor => NotLostThroughNull desk
  | _ => True

/-- No null function is called for these events. -/
def NoNullCall (fields : InputMethod → InputMethodFields)
    (events : List Event) : Prop :=
  (events.filterMap (notice fields)).any Notice.isNullCall = false

section Calls

variable {fields : InputMethod → InputMethodFields}

theorem noNullCall_append (first second : List Event) :
    NoNullCall fields (first ++ second) ↔
      NoNullCall fields first ∧ NoNullCall fields second := by
  rw [NoNullCall, List.filterMap_append, List.any_append, Bool.or_eq_false_iff]
  exact Iff.rfl

theorem noNullCall_of_silent {events : List Event}
    (silent : ∀ event ∈ events, event.notifies = none) :
    NoNullCall fields events := by
  have nothing : events.filterMap (notice fields) = [] := by
    rw [List.filterMap_eq_nil_iff]
    intro event member
    have quiet := silent event member
    cases event with
    | onFocusLost context => cases quiet
    | onTextChanged context text => cases quiet
    | _ => rfl
  rw [NoNullCall, nothing]
  rfl

theorem noNullCall_onFocusLost (current : Option InputMethod) :
    NoNullCall fields [.onFocusLost current] ↔
      ∀ context, current = some context →
        (fields context).focusLost ≠ some none := by
  cases current with
  | none => exact iff_of_true rfl fun _ impossible => by cases impossible
  | some context =>
      have one : (∀ other, some context = some other →
          (fields other).focusLost ≠ some none) ↔
            (fields context).focusLost ≠ some none := by
        constructor
        · intro all
          exact all context rfl
        · rintro set _ ⟨rfl⟩
          exact set
      rw [one]
      cases set : (fields context).focusLost with
      | none => simp [NoNullCall, notice, set]
      | some callback =>
          cases callback with
          | none => simp [NoNullCall, notice, set, Notice.isNullCall]
          | some function => simp [NoNullCall, notice, set, Notice.isNullCall]

theorem noNullCall_lost (current : Option InputMethod) (lost : Prop)
    [Decidable lost] :
    NoNullCall fields (if lost then [Event.onFocusLost current] else []) ↔
      (lost → ∀ context, current = some context →
        (fields context).focusLost ≠ some none) := by
  split
  · rename_i isLost
    rw [noNullCall_onFocusLost]
    exact ⟨fun set _ => set, fun set => set isLost⟩
  · rename_i kept
    exact iff_of_true rfl fun isLost => (kept isLost).elim

end Calls

section Functions

variable {desk : Desk}

private theorem upToDate_iff (safe : desk.crashed = false)
    (operation : ContextOperation) (shows : Shows (desk.next operation)) :
    UpToDate (desk.next operation) ↔
      NoNullCall desk.fields (desk.respond operation) := by
  rw [UpToDate, and_iff_left shows]
  simp only [Desk.next, safe, Bool.false_or]
  exact Iff.rfl

private theorem unheard_start (manager : InputMethodManager) :
    ∀ event ∈ manager.startInputMethodApplicationIfNeeded.2,
      event.notifies = none := by
  intro event member
  rw [InputMethodManager.eq_of_mem_start member]
  rfl

private theorem unheard_updateInitialText (manager : InputMethodManager) :
    ∀ event ∈ manager.updateInitialText, event.notifies = none := by
  intro event member
  rw [InputMethodManager.eq_of_mem_updateInitialText member]
  rfl

/-- A function whose events are quiet and keep the current input method with
its text leaves everything up to date. -/
private theorem upToDate_quiet (good : UpToDate desk)
    {operation : ContextOperation}
    (manager : ∀ context,
      (desk.next operation).session.manager.currentInputMethod =
        some context →
      desk.session.manager.currentInputMethod = some context ∧
        (desk.next operation).session.manager.cachedInitialText =
          desk.session.manager.cachedInitialText)
    (quiet : ∀ event ∈ desk.respond operation,
      (displays desk.fields).next desk.shown event = desk.shown) :
    Shows (desk.next operation) := by
  intro context current
  obtain ⟨before, text⟩ := manager context current
  rw [text]
  simp only [Desk.next, System.after_fixed quiet]
  exact good.2 context before

/-- Only these operations change what a field shows. -/
private theorem displays_lasting {operation : Operation}
    (notCreated : ∀ context, operation ≠ .createInputMethod context)
    (notRequired : ∀ context text, operation ≠ .require context text)
    (notUpdated : ∀ text, operation ≠ .updateInputText text)
    {event : Event} (member : event ∈ desk.session.respond operation) :
    (displays desk.fields).next desk.shown event = desk.shown := by
  have emitted := mayEmit_perform member
  cases event with
  | created context => exact (notCreated context emitted).elim
  | required context text => exact (notRequired context text emitted).elim
  | onTextChanged context text => exact (notUpdated text emitted.2.2).elim
  | _ => rfl

private theorem cStr_initialText (text : Option CString) :
    cStr (initialText text) = initialText text := by
  rw [cStr_eq_self_iff]
  cases text with
  | none => exact List.not_mem_nil
  | some text => exact text.nulFree

theorem upToDate_require (good : UpToDate desk) (context : Option InputMethod)
    (text : Option CString) :
    UpToDate (desk.next (.require context text)) ↔
      (desk.session.manager.currentInputMethod ≠ context →
        NotLostThroughNull desk) := by
  have shows : Shows (desk.next (.require context text)) := by
    intro current isCurrent
    have required : context = some current := by
      simpa [Desk.next, ContextOperation.onManager, InputMethodManager.perform,
        InputMethodManager.require_fields] using isCurrent
    subst required
    have cached : (desk.next (.require (some current)
        text)).session.manager.cachedInitialText = initialText text := by
      simp [Desk.next, ContextOperation.onManager, InputMethodManager.perform,
        InputMethodManager.require_fields]
    rw [cached, cStr_initialText]
    simp only [Desk.next, Desk.respond, ContextOperation.onManager,
      Session.respond, InputMethodManager.perform, InputMethodManager.require,
      System.after_append, System.after_cons]
    rw [System.after_fixed, System.after_fixed]
    · exact Function.update_self _ _ _
    · intro event member
      rw [InputMethodManager.eq_of_mem_start member]
      rfl
    · intro event member
      rw [InputMethodManager.eq_of_mem_updateInitialText member]
      rfl
  rw [upToDate_iff good.1 _ shows]
  simp only [Desk.respond, ContextOperation.onManager, Session.respond,
    InputMethodManager.perform, InputMethodManager.require, noNullCall_append]
  rw [and_iff_left (noNullCall_of_silent (unheard_updateInitialText _)),
    and_iff_left, noNullCall_lost]
  · constructor
    · intro told other current isCurrent
      exact told ⟨isCurrent ▸ rfl, other⟩ current isCurrent
    · rintro told ⟨_, other⟩
      exact told other
  · apply noNullCall_of_silent
    intro event member
    rcases List.mem_cons.mp member with rfl | started
    · rfl
    · exact unheard_start _ event started

theorem upToDate_unbindController (good : UpToDate desk)
    (controller : Option InputMethodController) :
    UpToDate (desk.next (.unbindController controller)) ↔
      (desk.session.manager.currentInputMethodController = controller →
        NotLostThroughNull desk) := by
  have shows : Shows (desk.next (.unbindController controller)) := by
    apply upToDate_quiet good
    · intro context current
      simp only [Desk.next, ContextOperation.onManager, manager_next,
        InputMethodManager.perform,
        InputMethodManager.unbindController_fields] at current ⊢
      split
      · rename_i bound
        rw [if_pos bound] at current
        exact ⟨current, rfl⟩
      · rename_i other
        rw [if_neg other] at current
        exact ⟨current, rfl⟩
    · intro event member
      exact displays_lasting (by simp) (by simp) (by simp) member
  rw [upToDate_iff good.1 _ shows]
  simp only [Desk.respond, ContextOperation.onManager, Session.respond,
    InputMethodManager.perform, InputMethodManager.unbindController]
  split
  · rename_i other
    exact iff_of_true rfl fun bound => (other bound).elim
  · rename_i bound
    rw [not_not] at bound
    have head : NoNullCall desk.fields
        [.unbind desk.session.manager.currentInputMethodController] :=
      noNullCall_of_silent (by simp [Event.notifies])
    rw [← List.singleton_append, noNullCall_append, and_iff_right head,
      noNullCall_lost]
    constructor
    · intro told _ context current
      exact told (by rw [current]; rfl) context current
    · intro told _
      exact told bound

theorem upToDate_destructor (good : UpToDate desk) :
    UpToDate (desk.next .destructor) ↔ NotLostThroughNull desk := by
  have shows : Shows (desk.next .destructor) := by
    apply upToDate_quiet good
    · intro context current
      exact ⟨current, rfl⟩
    · intro event member
      exact displays_lasting (by simp) (by simp) (by simp) member
  rw [upToDate_iff good.1 _ shows]
  simp only [Desk.respond, ContextOperation.onManager, Session.respond,
    InputMethodManager.perform, InputMethodManager.destructor]
  rw [noNullCall_append, and_iff_left, noNullCall_lost]
  · constructor
    · intro told context current
      exact told (by rw [current]; rfl) context current
    · intro told _
      exact told
  · apply noNullCall_of_silent
    intro event member
    split at member
    · rw [List.mem_singleton.mp member]
      rfl
    · cases member

/-- Functions that notify nobody and leave the current input method alone or
without a successor. -/
private theorem upToDate_silent (good : UpToDate desk)
    {operation : ContextOperation}
    (manager : ∀ context,
      (desk.next operation).session.manager.currentInputMethod =
        some context →
      desk.session.manager.currentInputMethod = some context ∧
        (desk.next operation).session.manager.cachedInitialText =
          desk.session.manager.cachedInitialText)
    (quiet : ∀ event ∈ desk.respond operation,
      (displays desk.fields).next desk.shown event = desk.shown)
    (silent : ∀ event ∈ desk.respond operation, event.notifies = none) :
    UpToDate (desk.next operation) := by
  rw [upToDate_iff good.1 _ (upToDate_quiet good manager quiet)]
  exact noNullCall_of_silent silent

theorem upToDate_destroy (good : UpToDate desk)
    (context : Option InputMethod) :
    UpToDate (desk.next (.destroy context)) := by
  apply upToDate_silent good
  · intro current isCurrent
    simp only [Desk.next, ContextOperation.onManager, manager_next,
      InputMethodManager.perform,
      InputMethodManager.destroyInputMethod_fields] at isCurrent ⊢
    split
    · rename_i destroyed
      rw [if_pos destroyed] at isCurrent
      cases isCurrent
    · rename_i other
      rw [if_neg other] at isCurrent
      exact ⟨isCurrent, rfl⟩
  · intro event member
    exact displays_lasting (by simp) (by simp) (by simp) member
  · intro event member
    simp only [Desk.respond, ContextOperation.onManager, Session.respond,
      InputMethodManager.perform, InputMethodManager.destroyInputMethod,
      List.mem_append, List.mem_singleton] at member
    rcases member with stopped | rfl
    · split at stopped
      · rw [InputMethodManager.eq_of_mem_stop stopped]
        rfl
      · cases stopped
    · rfl

theorem upToDate_bindController (good : UpToDate desk)
    (controller : Option InputMethodController) :
    UpToDate (desk.next (.bindController controller)) := by
  apply upToDate_silent good
  · intro context current
    simp only [Desk.next, ContextOperation.onManager, manager_next,
      InputMethodManager.perform,
      InputMethodManager.bindController_fields] at current ⊢
    exact ⟨current, trivial⟩
  · intro event member
    exact displays_lasting (by simp) (by simp) (by simp) member
  · intro event member
    simp only [Desk.respond, ContextOperation.onManager, Session.respond,
      InputMethodManager.perform, InputMethodManager.bindController] at member
    split at member
    · cases member
    · simp only [List.mem_append] at member
      rcases member with (unbound | bound) | updated
      · split at unbound
        · rw [List.mem_singleton.mp unbound]
          rfl
        · cases unbound
      · split at bound
        · rw [List.mem_singleton.mp bound]
          rfl
        · cases bound
      · exact unheard_updateInitialText _ event updated

theorem upToDate_create (good : UpToDate desk) (alive : Alive desk.session)
    (userData : Nat) {context : InputMethod}
    (fresh : context ∉ desk.session.live) :
    UpToDate (desk.next (.create userData context)) := by
  have shows : Shows (desk.next (.create userData context)) := by
    intro current isCurrent
    have exists_ := alive.current current isCurrent
    have other : current ≠ context := by
      rintro rfl
      exact fresh exists_
    have before := good.2 current isCurrent
    have kept : (desk.next (.create userData context)).shown current =
        desk.shown current :=
      Function.update_of_ne other _ _
    rw [kept]
    exact before
  rw [upToDate_iff good.1 _ shows]
  apply noNullCall_of_silent
  intro event member
  rw [List.mem_singleton.mp member]
  rfl

theorem upToDate_onFields (good : UpToDate desk)
    {operation : ContextOperation} (local_ : operation.onManager = none) :
    UpToDate (desk.next operation) := by
  have quiet : desk.respond operation = [] := by
    rw [Desk.respond, local_]
  have session : (desk.next operation).session = desk.session := by
    simp only [Desk.next, local_]
  apply upToDate_silent good
  · intro context current
    rw [session] at current ⊢
    exact ⟨current, rfl⟩
  · intro event member
    rw [quiet] at member
    cases member
  · intro event member
    rw [quiet] at member
    cases member

private theorem forall_current_iff {current : Option InputMethod}
    {context : InputMethod} (isCurrent : current = some context)
    {holds : InputMethod → Prop} :
    (∀ other, current = some other → holds other) ↔ holds context := by
  constructor
  · intro all
    exact all context isCurrent
  · intro one other otherCurrent
    have same := isCurrent.symm.trans otherCurrent
    rw [Option.some.injEq] at same
    rw [← same]
    exact one

/-- A text reaches the field through its function, and without one the field
has to show it already. -/
theorem upToDate_updateInputText (good : UpToDate desk) (text : Text) :
    UpToDate (desk.next (.updateInputText text)) ↔
      Delivered desk (.updateInputText text) := by
  have manager : (desk.next (.updateInputText text)).session.manager =
      if desk.session.manager.currentInputMethod.isSome then
        { desk.session.manager with cachedInitialText := text }
      else desk.session.manager :=
    desk.session.manager.updateInputText_fields text
  cases current : desk.session.manager.currentInputMethod with
  | none =>
      have kept : (desk.next (.updateInputText text)).session.manager =
          desk.session.manager := by
        rw [manager, current]
        rfl
      have events : desk.respond (.updateInputText text) =
          [.submitted desk.session.manager.currentInputMethodController
            text] := by
        simp [Desk.respond, ContextOperation.onManager, Session.respond,
          InputMethodManager.perform, InputMethodManager.updateInputText,
          current]
      apply iff_of_true
      · apply upToDate_silent good
        · intro context isCurrent
          rw [kept, current] at isCurrent
          cases isCurrent
        · intro event member
          rw [events, List.mem_singleton] at member
          rw [member]
          rfl
        · intro event member
          rw [events, List.mem_singleton] at member
          rw [member]
          rfl
      · intro context isCurrent
        rw [current] at isCurrent
        cases isCurrent
  | some context =>
      have stored : (desk.next (.updateInputText text)).session.manager =
          { desk.session.manager with cachedInitialText := text } := by
        rw [manager, current]
        rfl
      have events : desk.respond (.updateInputText text) =
          [.submitted desk.session.manager.currentInputMethodController text,
            .onTextChanged (some context) text] := by
        simp [Desk.respond, ContextOperation.onManager, Session.respond,
          InputMethodManager.perform, InputMethodManager.updateInputText,
          current]
      have before := good.2 context current
      have shows : Shows (desk.next (.updateInputText text)) ↔
          (desk.next (.updateInputText text)).shown context =
            some (cStr text) := by
        rw [Shows, stored]
        exact forall_current_iff current
      have delivered : Delivered desk (.updateInputText text) ↔
          match (desk.fields context).textChanged with
          | some callback => callback ≠ none
          | none =>
              cStr text = cStr desk.session.manager.cachedInitialText :=
        forall_current_iff current
      rw [UpToDate, shows, delivered]
      simp only [Desk.next, Desk.noticesOf, events, good.1, Bool.false_or]
      cases set : (desk.fields context).textChanged with
      | none =>
          -- Nothing is called, and the field keeps what it shows.
          have quiet : (displays desk.fields).after desk.shown
              [.submitted desk.session.manager.currentInputMethodController
                text, .onTextChanged (some context) text] = desk.shown := by
            simp only [displays, System.after_cons, System.after_nil, set]
          rw [quiet, before]
          simp [notice, set, eq_comm]
      | some callback =>
          cases callback with
          | none => simp [notice, set, Notice.isNullCall]
          | some function =>
              refine iff_of_true ⟨?_, ?_⟩ (Option.some_ne_none function)
              · simp [notice, set, Notice.isNullCall]
              · simp [displays, System.after_cons, set]

end Functions

theorem upToDate_iff_delivered (desk : Desk) (operation : ContextOperation)
    (good : UpToDate desk) (alive : Alive desk.session)
    (isEnabled : desk.Enabled operation) :
    UpToDate (desk.next operation) ↔ Delivered desk operation := by
  obtain ⟨_, _, isEnabled⟩ := isEnabled
  cases operation with
  | create userData context =>
      exact iff_of_true (upToDate_create good alive userData isEnabled.2)
        trivial
  | destroy context => exact iff_of_true (upToDate_destroy good context) trivial
  | require context text => exact upToDate_require good context text
  | getUserData context => exact iff_of_true (upToDate_onFields good rfl) trivial
  | setTextChanged context callback =>
      exact iff_of_true (upToDate_onFields good rfl) trivial
  | setFocusLost context callback =>
      exact iff_of_true (upToDate_onFields good rfl) trivial
  | bindController controller =>
      exact iff_of_true (upToDate_bindController good controller) trivial
  | unbindController controller =>
      exact upToDate_unbindController good controller
  | updateInputText text => exact upToDate_updateInputText good text
  | destructor => exact upToDate_destructor good

/-- The desk is up to date, and its session is that of a manager in use. -/
structure Sound (desk : Desk) : Prop where
  upToDate : UpToDate desk
  reachable : system.Reachable desk.session

private theorem sound_next (desk : Desk) (operation : ContextOperation)
    (sound : Sound desk) (isEnabled : desk.Enabled operation)
    (delivered : Delivered desk operation) : Sound (desk.next operation) := by
  have alive := (alive_and_agrees sound.reachable).1
  constructor
  · exact (upToDate_iff_delivered desk operation sound.upToDate alive
      isEnabled).mpr delivered
  · have labels := refinesSession.step_run desk operation trivial isEnabled
    have view := refinesSession.step_view desk operation trivial isEnabled
    obtain ⟨operations, run, reached⟩ := sound.reachable
    refine ⟨operations ++ operation.onManager.toList, ?_, ?_⟩
    · rw [System.run_append, reached]
      exact ⟨run, labels⟩
    · rw [System.after_append, reached]
      exact view.symm

theorem sound_start : Sound desks.start where
  upToDate := ⟨rfl, fun _ current => by cases current⟩
  reachable := ⟨[], trivial, rfl⟩

/-- In every run of the UI and the controllers: no null function is called and
the field of the current input method always shows the C string of the
manager's text if and only if every submitted text finds a function or is on
display already, and no focus is lost through a null function.  In such a run
the field shows the same as a bound controller if and only if the text has no
terminator inside. -/
theorem fields_show_text {operations : List ContextOperation}
    (run : desks.Run desks.start operations) :
    (desks.AllSteps (fun desk operation => UpToDate (desk.next operation))
        desks.start operations ↔
      desks.AllSteps Delivered desks.start operations) ∧
    (desks.AllSteps Delivered desks.start operations →
      ∀ context controller,
        let desk := desks.after desks.start operations
        desk.session.manager.currentInputMethod = some context →
        desk.session.manager.currentInputMethodController =
          some controller →
        (desk.shown context = desk.session.copies.view controller ↔
          nul ∉ desk.session.manager.cachedInitialText)) := by
  constructor
  · apply run.allSteps_congr sound_next _ sound_start
    intro desk operation sound isEnabled
    have alive := (alive_and_agrees sound.reachable).1
    exact upToDate_iff_delivered desk operation sound.upToDate alive isEnabled
  · intro delivered context controller desk current bound
    have sound : Sound desk :=
      (run.runWhen delivered).invariant sound_next sound_start
    have agrees := (alive_and_agrees sound.reachable).2
    rw [sound.upToDate.2 context current,
      agrees.view context controller current bound, Option.some.injEq]
    exact cStr_eq_self_iff _

/-- A controller submits a text with a terminator inside: the field shows what
is in front of it, the controller everything. -/
def submitTerminated : List ContextOperation :=
  [.create 5 0, .setTextChanged 0 (some 9), .bindController (some 7),
    .require (some 0) none, .updateInputText ['a', nul, 'b']]

theorem fields_show_text_terminated :
    let desk := desks.after desks.start submitTerminated
    ¬desk.shown 0 = desk.session.copies.view 7 := by
  intro desk same
  have run : desks.Run desks.start submitTerminated := by
    decide
  have delivered : desks.AllSteps Delivered desks.start submitTerminated := by
    refine ⟨trivial, trivial, trivial, ?_, ?_, trivial⟩
    · intro _ context current
      cases current
    · intro context current
      have isContext : 0 = context := Option.some.inj current
      subst isContext
      exact Option.some_ne_none 9
  have agree := (fields_show_text run).2 delivered 0 7 rfl rfl
  exact agree.mp same (by decide)

end QuickApp.TextInput
