import Mathlib.Data.Finset.Option
import Mathlib.Logic.Function.Basic
import QuickApp.Transition

/-!
# The input method manager

`InputMethodManager` connects the input methods of the applications with the
controller of the input-method application.  Its operations are functions from
the fields of the manager to the new fields and the calls they make, in order.
Pointers are `Option` values, so that a call through a null pointer is visible
as a call without a receiver.

A session is a manager with the operations performed on it.  The callbacks of
input methods and controllers do not call back into the manager here.
-/

namespace QuickApp.TextInput

abbrev InputMethod := Nat
abbrev InputMethodController := Nat
abbrev Text := List Char

/-- What an operation does to the objects around the manager, and the two
places where a reader of the trace needs to know about the manager itself:
`required` is the assignment of `current_input_method_` by `Require`, and
`submitted` the entry of `UpdateInputText` with the controller bound then. -/
inductive Event where
  | created (inputMethod : InputMethod)
  | deleted (inputMethod : Option InputMethod)
  | required (inputMethod : Option InputMethod) (initialText : Text)
  | submitted (controller : Option InputMethodController) (text : Text)
  | onFocusLost (inputMethod : Option InputMethod)
  | onTextChanged (inputMethod : Option InputMethod) (text : Text)
  | bind (controller : Option InputMethodController)
  | unbind (controller : Option InputMethodController)
  | updateInitialText (controller : Option InputMethodController) (text : Text)
  | launchApp
  | stopApp
  deriving DecidableEq

/-- The fields of `InputMethodManager`. -/
structure InputMethodManager where
  currentInputMethod : Option InputMethod := none
  currentInputMethodController : Option InputMethodController := none
  cachedInitialText : Text := []
  inputMethodApplicationStarted : Bool := false
  deriving DecidableEq

namespace InputMethodManager

variable (manager : InputMethodManager)

def startInputMethodApplicationIfNeeded : InputMethodManager × List Event :=
  if manager.inputMethodApplicationStarted then
    (manager, [])
  else
    ({ manager with inputMethodApplicationStarted := true }, [.launchApp])

def stopInputMethodApplicationIfNeeded : InputMethodManager × List Event :=
  if manager.inputMethodApplicationStarted then
    ({ manager with inputMethodApplicationStarted := false }, [.stopApp])
  else
    (manager, [])

def updateInitialText : List Event :=
  if manager.currentInputMethodController.isSome then
    [.updateInitialText manager.currentInputMethodController
      manager.cachedInitialText]
  else
    []

def createInputMethod (inputMethod : InputMethod) : List Event :=
  [.created inputMethod]

def destroyInputMethod (inputMethod : Option InputMethod) :
    InputMethodManager × List Event :=
  let (manager, stopped) :=
    if manager.currentInputMethod = inputMethod then
      stopInputMethodApplicationIfNeeded
        { manager with currentInputMethod := none }
    else
      (manager, [])
  (manager, stopped ++ [.deleted inputMethod])

def require (inputMethod : Option InputMethod) (initialText : Text) :
    InputMethodManager × List Event :=
  let lost :=
    if manager.currentInputMethod.isSome ∧
        manager.currentInputMethod ≠ inputMethod then
      [Event.onFocusLost manager.currentInputMethod]
    else
      []
  let (manager, started) := startInputMethodApplicationIfNeeded
    { manager with
      currentInputMethod := inputMethod
      cachedInitialText := initialText }
  (manager, lost ++ .required inputMethod initialText :: started ++
    manager.updateInitialText)

def bindController (controller : Option InputMethodController) :
    InputMethodManager × List Event :=
  if manager.currentInputMethodController = controller then
    (manager, [])
  else
    let unbound :=
      if manager.currentInputMethodController.isSome then
        [Event.unbind manager.currentInputMethodController]
      else
        []
    let manager := { manager with currentInputMethodController := controller }
    let bound := if controller.isSome then [Event.bind controller] else []
    (manager, unbound ++ bound ++ manager.updateInitialText)

def unbindController (controller : Option InputMethodController) :
    InputMethodManager × List Event :=
  if manager.currentInputMethodController ≠ controller then
    (manager, [])
  else
    let lost :=
      if manager.currentInputMethod.isSome then
        [Event.onFocusLost manager.currentInputMethod]
      else
        []
    ({ manager with
        currentInputMethodController := none
        inputMethodApplicationStarted := false },
      .unbind manager.currentInputMethodController :: lost)

def updateInputText (text : Text) : InputMethodManager × List Event :=
  if manager.currentInputMethod.isSome then
    ({ manager with cachedInitialText := text },
      [.onTextChanged manager.currentInputMethod text])
  else
    (manager, [])

/-- `~InputMethodManager`. -/
def destructor : List Event :=
  (if manager.currentInputMethod.isSome then
      [Event.onFocusLost manager.currentInputMethod]
    else
      []) ++
    (if manager.currentInputMethodController.isSome then
      [Event.unbind manager.currentInputMethodController]
    else
      [])

section Fields

variable (inputMethod : Option InputMethod) (text : Text)
  (controller : Option InputMethodController)

@[simp] theorem start_fields :
    manager.startInputMethodApplicationIfNeeded.1 =
      { manager with inputMethodApplicationStarted := true } := by
  rw [startInputMethodApplicationIfNeeded]
  split
  · rename_i started
    rw [← started]
  · rfl

@[simp] theorem stop_fields :
    manager.stopInputMethodApplicationIfNeeded.1 =
      { manager with inputMethodApplicationStarted := false } := by
  rw [stopInputMethodApplicationIfNeeded]
  split
  · rfl
  · rename_i stopped
    rw [Bool.not_eq_true] at stopped
    rw [← stopped]

theorem destroyInputMethod_fields :
    (manager.destroyInputMethod inputMethod).1 =
      if manager.currentInputMethod = inputMethod then
        { manager with
          currentInputMethod := none
          inputMethodApplicationStarted := false }
      else manager := by
  simp only [destroyInputMethod]
  split <;> simp

theorem require_fields :
    (manager.require inputMethod text).1 =
      { manager with
        currentInputMethod := inputMethod
        cachedInitialText := text
        inputMethodApplicationStarted := true } := by
  simp [require]

theorem bindController_fields :
    (manager.bindController controller).1 =
      { manager with currentInputMethodController := controller } := by
  simp only [bindController]
  split
  · rename_i same
    rw [← same]
  · rfl

theorem unbindController_fields :
    (manager.unbindController controller).1 =
      if manager.currentInputMethodController = controller then
        { manager with
          currentInputMethodController := none
          inputMethodApplicationStarted := false }
      else manager := by
  simp only [unbindController, ne_eq, ite_not]
  split <;> rfl

theorem updateInputText_fields :
    (manager.updateInputText text).1 =
      if manager.currentInputMethod.isSome then
        { manager with cachedInitialText := text }
      else manager := by
  rw [updateInputText]
  split <;> rfl

end Fields

section Events

variable {manager : InputMethodManager} {event : Event}

theorem eq_of_mem_start
    (member : event ∈ manager.startInputMethodApplicationIfNeeded.2) :
    event = .launchApp := by
  rw [startInputMethodApplicationIfNeeded] at member
  split at member
  · cases member
  · exact List.mem_singleton.mp member

theorem eq_of_mem_stop
    (member : event ∈ manager.stopInputMethodApplicationIfNeeded.2) :
    event = .stopApp := by
  rw [stopInputMethodApplicationIfNeeded] at member
  split at member
  · exact List.mem_singleton.mp member
  · cases member

theorem eq_of_mem_updateInitialText
    (member : event ∈ manager.updateInitialText) :
    event = .updateInitialText manager.currentInputMethodController
      manager.cachedInitialText := by
  rw [updateInitialText] at member
  split at member
  · exact List.mem_singleton.mp member
  · cases member

end Events

end InputMethodManager

/-- The calls made on the manager.  `createInputMethod` carries the address
that `new` returns. -/
inductive Operation where
  | createInputMethod (inputMethod : InputMethod)
  | destroyInputMethod (inputMethod : Option InputMethod)
  | require (inputMethod : Option InputMethod) (initialText : Text)
  | bindController (controller : Option InputMethodController)
  | unbindController (controller : Option InputMethodController)
  | updateInputText (text : Text)
  | destructor
  deriving DecidableEq

/-- An operation, the manager it was called on and what it did. -/
structure Record where
  before : InputMethodManager
  operation : Operation
  events : List Event

/-- The new fields and the events of one operation. -/
def InputMethodManager.perform (manager : InputMethodManager) :
    Operation → InputMethodManager × List Event
  | .createInputMethod inputMethod =>
      (manager, createInputMethod inputMethod)
  | .destroyInputMethod inputMethod => manager.destroyInputMethod inputMethod
  | .require inputMethod initialText => manager.require inputMethod initialText
  | .bindController controller => manager.bindController controller
  | .unbindController controller => manager.unbindController controller
  | .updateInputText text =>
      let (next, events) := manager.updateInputText text
      (next, .submitted manager.currentInputMethodController text :: events)
  | .destructor => (manager, manager.destructor)

/-- The events an operation can lead to, and to whom they go. -/
def InputMethodManager.MayEmit (manager : InputMethodManager)
    (operation : Operation) : Event → Prop
  | .created inputMethod => operation = .createInputMethod inputMethod
  | .deleted inputMethod => operation = .destroyInputMethod inputMethod
  | .required inputMethod initialText =>
      operation = .require inputMethod initialText
  | .submitted controller text => operation = .updateInputText text ∧
      controller = manager.currentInputMethodController
  | .onFocusLost inputMethod =>
      inputMethod = manager.currentInputMethod ∧ inputMethod.isSome
  | .onTextChanged inputMethod text =>
      inputMethod = manager.currentInputMethod ∧ inputMethod.isSome ∧
        operation = .updateInputText text
  | .bind controller =>
      operation = .bindController controller ∧ controller.isSome
  | .unbind controller => controller = manager.currentInputMethodController
  | .updateInitialText controller _ => controller.isSome
  | .launchApp => ∃ inputMethod text, operation = .require inputMethod text
  | .stopApp => ∃ inputMethod, operation = .destroyInputMethod inputMethod

section Emissions

variable {manager : InputMethodManager} {event : Event}

open InputMethodManager

private theorem mayEmit_destroyInputMethod {inputMethod : Option InputMethod}
    (member : event ∈ (manager.destroyInputMethod inputMethod).2) :
    manager.MayEmit (.destroyInputMethod inputMethod) event := by
  simp only [destroyInputMethod, List.mem_append] at member
  rcases member with stopped | deleted
  · split at stopped
    · rw [eq_of_mem_stop stopped]
      exact ⟨inputMethod, rfl⟩
    · cases stopped
  · rw [List.mem_singleton.mp deleted]
    rfl

private theorem mayEmit_updateInitialText {operation : Operation}
    {other : InputMethodManager} (member : event ∈ other.updateInitialText) :
    manager.MayEmit operation event := by
  have bound : other.currentInputMethodController.isSome := by
    rw [updateInitialText] at member
    split at member
    · assumption
    · cases member
  rw [eq_of_mem_updateInitialText member]
  exact bound

private theorem mayEmit_require {inputMethod : Option InputMethod}
    {initialText : Text}
    (member : event ∈ (manager.require inputMethod initialText).2) :
    manager.MayEmit (.require inputMethod initialText) event := by
  simp only [require, List.mem_append, List.mem_cons] at member
  rcases member with (lost | rfl | started) | updated
  · split at lost
    · rename_i present
      rw [List.mem_singleton.mp lost]
      exact ⟨rfl, present.1⟩
    · cases lost
  · rfl
  · rw [eq_of_mem_start started]
    exact ⟨inputMethod, initialText, rfl⟩
  · exact mayEmit_updateInitialText updated

private theorem mayEmit_bindController
    {controller : Option InputMethodController}
    (member : event ∈ (manager.bindController controller).2) :
    manager.MayEmit (.bindController controller) event := by
  rw [bindController] at member
  split at member
  · cases member
  · simp only [List.mem_append] at member
    rcases member with (unbound | bound) | updated
    · split at unbound
      · rw [List.mem_singleton.mp unbound]
        rfl
      · cases unbound
    · split at bound
      · rename_i present
        rw [List.mem_singleton.mp bound]
        exact ⟨rfl, present⟩
      · cases bound
    · exact mayEmit_updateInitialText updated

private theorem mayEmit_lost {operation : Operation}
    (member : event ∈ if manager.currentInputMethod.isSome then
      [Event.onFocusLost manager.currentInputMethod] else []) :
    manager.MayEmit operation event := by
  split at member
  · rename_i present
    rw [List.mem_singleton.mp member]
    exact ⟨rfl, present⟩
  · cases member

theorem mayEmit_perform {operation : Operation}
    (member : event ∈ (manager.perform operation).2) :
    manager.MayEmit operation event := by
  cases operation with
  | createInputMethod inputMethod =>
      rw [List.mem_singleton.mp member]
      rfl
  | destroyInputMethod inputMethod => exact mayEmit_destroyInputMethod member
  | require inputMethod initialText => exact mayEmit_require member
  | bindController controller => exact mayEmit_bindController member
  | unbindController controller =>
      rw [perform, unbindController] at member
      split at member
      · cases member
      · rcases List.mem_cons.mp member with rfl | lost
        · rfl
        · exact mayEmit_lost lost
  | updateInputText text =>
      simp only [perform, updateInputText, List.mem_cons] at member
      rcases member with rfl | changed
      · exact ⟨rfl, rfl⟩
      · split at changed
        · rename_i present
          rw [List.mem_singleton.mp changed]
          exact ⟨rfl, present, rfl⟩
        · cases changed
  | destructor =>
      rcases List.mem_append.mp member with lost | unbound
      · exact mayEmit_lost lost
      · split at unbound
        · rw [List.mem_singleton.mp unbound]
          rfl
        · cases unbound

end Emissions

/-- All events of a history, in order; the history is newest first. -/
def traceOf : List Record → List Event
  | [] => []
  | record :: earlier => traceOf earlier ++ record.events

/-- The manager and the operations performed on it so far, newest first. -/
structure Session where
  manager : InputMethodManager := {}
  destructed : Bool := false
  history : List Record := []

/-- An event that calls a method of an input method. -/
def Event.notifies : Event → Option (Option InputMethod)
  | .onFocusLost inputMethod => some inputMethod
  | .onTextChanged inputMethod _ => some inputMethod
  | _ => none

/-- The input methods that exist.  Only these may be notified. -/
def lifetimes : System (Finset InputMethod) Event where
  start := ∅
  enabled live event := ∀ receiver ∈ event.notifies,
    ∃ inputMethod ∈ live, receiver = some inputMethod
  next live
    | .created inputMethod => insert inputMethod live
    | .deleted (some inputMethod) => live.erase inputMethod
    | _ => live

namespace Session

variable (session : Session)

def trace : List Event :=
  traceOf session.history

/-- The input methods created and not deleted. -/
def live : Finset InputMethod :=
  lifetimes.after ∅ session.trace

/-- A pointer that is null or points to an existing input method. -/
def Valid (inputMethod : Option InputMethod) : Prop :=
  ∀ pointee ∈ inputMethod, pointee ∈ session.live

/-- Pointers to input methods are null or valid, `new` returns an unused
address, and nothing is called after the destructor. -/
def Enabled (operation : Operation) : Prop :=
  session.destructed = false ∧
    match operation with
    | .createInputMethod inputMethod => inputMethod ∉ session.live
    | .destroyInputMethod inputMethod => session.Valid inputMethod
    | .require inputMethod _ => session.Valid inputMethod
    | _ => True

instance Valid.decidable (inputMethod : Option InputMethod) :
    Decidable (session.Valid inputMethod) :=
  inferInstanceAs (Decidable (∀ pointee ∈ inputMethod, pointee ∈ session.live))

instance Enabled.decidable :
    ∀ operation, Decidable (session.Enabled operation)
  | .createInputMethod _ => inferInstanceAs (Decidable (_ ∧ _ ∉ _))
  | .destroyInputMethod _ => inferInstanceAs (Decidable (_ ∧ session.Valid _))
  | .require _ _ => inferInstanceAs (Decidable (_ ∧ session.Valid _))
  | .bindController _ => inferInstanceAs (Decidable (_ ∧ True))
  | .unbindController _ => inferInstanceAs (Decidable (_ ∧ True))
  | .updateInputText _ => inferInstanceAs (Decidable (_ ∧ True))
  | .destructor => inferInstanceAs (Decidable (_ ∧ True))

/-- The events of one operation. -/
def respond (operation : Operation) : List Event :=
  (session.manager.perform operation).2

def next (operation : Operation) : Session where
  manager := (session.manager.perform operation).1
  destructed := session.destructed || operation == .destructor
  history :=
    { before := session.manager
      operation
      events := session.respond operation } :: session.history

end Session

/-- The runs of a new manager. -/
def system : System Session Operation where
  start := {}
  enabled := Session.Enabled
  next := Session.next

instance system.decidableEnabled (session : Session) (operation : Operation) :
    Decidable (system.enabled session operation) :=
  Session.Enabled.decidable session operation

section Steps

variable (session : Session) (operation : Operation)

@[simp] theorem system_next : system.next session operation =
    session.next operation := rfl

@[simp] theorem manager_next : (session.next operation).manager =
    (session.manager.perform operation).1 := rfl

@[simp] theorem trace_next : (session.next operation).trace =
    session.trace ++ session.respond operation := rfl

theorem live_next : (session.next operation).live =
    lifetimes.after session.live (session.respond operation) := by
  rw [Session.live, trace_next, System.after_append, ← Session.live]

end Steps

end QuickApp.TextInput
