import QuickApp.TextInput.Manager

/-!
# The text of a destroyed input method

Two runs that differ in the texts of one input method only show whether those
texts leak: what the controllers are told after its destruction has to be the
same.  `DestroyInputMethod` leaves `cached_initial_text_` as it is, so a
controller bound before the next `Require` is told the text of the destroyed
input method.
-/

namespace QuickApp.TextInput

open InputMethodManager

/-- The same operation, up to a text that belongs to the input method. -/
inductive SameButText (secret : InputMethod) (session : Session) :
    Operation → Operation → Prop where
  | same (operation : Operation) :
      SameButText secret session operation operation
  | require (left right : Text) :
      SameButText secret session (.require (some secret) left)
        (.require (some secret) right)
  | updateInputText (left right : Text)
      (current : session.manager.currentInputMethod = some secret) :
      SameButText secret session (.updateInputText left)
        (.updateInputText right)

/-- The same operations from a session on, up to such texts. -/
inductive SameButTexts (secret : InputMethod) :
    Session → List Operation → List Operation → Prop where
  | nil (session : Session) : SameButTexts secret session [] []
  | cons {session : Session} {left right : Operation}
      {lefts rights : List Operation}
      (head : SameButText secret session left right)
      (tail : SameButTexts secret (session.next left) lefts rights) :
      SameButTexts secret session (left :: lefts) (right :: rights)

/-- A text handed to a controller. -/
def Event.delivers : Event → Bool
  | .updateInitialText _ _ => true
  | _ => false

/-- The texts handed to controllers by a list of operations. -/
def deliveries : Session → List Operation → List Event
  | _, [] => []
  | session, operation :: operations =>
      (session.respond operation).filter Event.delivers ++
        deliveries (session.next operation) operations

/-- The session after some operations and the destruction of an input
method. -/
def afterDestruction (secret : InputMethod) (operations : List Operation) :
    Session :=
  system.after system.start
    (operations ++ [.destroyInputMethod (some secret)])

/-- Whatever the texts of the input method were, the controllers are told the
same after its destruction. -/
def Confidential (secret : InputMethod) (operations later : List Operation) :
    Prop :=
  ∀ others, SameButTexts secret system.start operations others →
    deliveries (afterDestruction secret operations) later =
      deliveries (afterDestruction secret others) later

/-- Whose text is the cached one: that of the input method of the latest
`Require`, or of an `UpdateInputText` since then. -/
def author : List Record → Option InputMethod
  | [] => none
  | record :: earlier =>
      match record.operation with
      | .require inputMethod _ => inputMethod
      | .updateInputText _ =>
          if record.before.currentInputMethod.isSome then
            record.before.currentInputMethod
          else author earlier
      | _ => author earlier

def Operation.isRequire : Operation → Bool
  | .require _ _ => true
  | _ => false

/-- The operations before the next `Require`. -/
def untilRequire (later : List Operation) : List Operation :=
  later.takeWhile fun operation => !operation.isRequire

/-- `BindController` is called with null or the bound controller. -/
def BindsNothing (session : Session) : Operation → Prop
  | .bindController controller => controller = none ∨
      session.manager.currentInputMethodController = controller
  | _ => True

/-- If the cached text is that of the destroyed input method, no controller is
bound before the next `Require`. -/
def Unread (secret : InputMethod) (operations later : List Operation) : Prop :=
  author (system.after system.start operations).history = some secret →
    system.AllSteps BindsNothing (afterDestruction secret operations)
      (untilRequire later)

/-- The same manager with another cached text. -/
def InputMethodManager.retext (manager : InputMethodManager) (text : Text) :
    InputMethodManager :=
  { manager with cachedInitialText := text }

/-- The operation assigns `cached_initial_text_`. -/
def InputMethodManager.Writes (manager : InputMethodManager) :
    Operation → Prop
  | .require _ _ => True
  | .updateInputText _ => manager.currentInputMethod.isSome
  | _ => False

section Retext

variable (manager : InputMethodManager) (text : Text)

theorem perform_retext_of_writes {operation : Operation}
    (writes : manager.Writes operation) :
    ((manager.retext text).perform operation).1 =
      (manager.perform operation).1 := by
  cases operation with
  | require inputMethod initialText =>
      simp [perform, require_fields, retext]
  | updateInputText submitted =>
      have present : manager.currentInputMethod.isSome := writes
      simp [perform, updateInputText_fields, retext, present]
  | createInputMethod inputMethod => exact writes.elim
  | destroyInputMethod inputMethod => exact writes.elim
  | bindController controller => exact writes.elim
  | unbindController controller => exact writes.elim
  | destructor => exact writes.elim

theorem perform_retext_of_keeps {operation : Operation}
    (keeps : ¬manager.Writes operation) :
    ((manager.retext text).perform operation).1 =
      (manager.perform operation).1.retext text := by
  cases operation with
  | createInputMethod inputMethod => rfl
  | destroyInputMethod inputMethod =>
      simp only [perform, destroyInputMethod_fields, retext]
      split <;> rfl
  | require inputMethod initialText => exact (keeps trivial).elim
  | bindController controller =>
      simp only [perform, bindController_fields, retext]
  | unbindController controller =>
      simp only [perform, unbindController_fields, retext]
      split <;> rfl
  | updateInputText submitted =>
      have absent : manager.currentInputMethod.isSome = false :=
        Bool.eq_false_iff.mpr keeps
      simp [perform, updateInputText_fields, retext, absent]
  | destructor => rfl

theorem cachedInitialText_of_keeps {operation : Operation}
    (keeps : ¬manager.Writes operation) :
    (manager.perform operation).1.cachedInitialText =
      manager.cachedInitialText := by
  have carried := perform_retext_of_keeps manager manager.cachedInitialText
    keeps
  have same : manager.retext manager.cachedInitialText = manager := rfl
  rw [same] at carried
  rw [carried]
  rfl

theorem require_retext (inputMethod : Option InputMethod)
    (initialText : Text) :
    (manager.retext text).require inputMethod initialText =
      manager.require inputMethod initialText := rfl

end Retext

theorem author_of_keeps {session : Session} {operation : Operation}
    (keeps : ¬session.manager.Writes operation) :
    author (session.next operation).history = author session.history := by
  cases operation with
  | require inputMethod initialText => exact (keeps trivial).elim
  | updateInputText submitted => exact if_neg keeps
  | createInputMethod inputMethod => rfl
  | destroyInputMethod inputMethod => rfl
  | bindController controller => rfl
  | unbindController controller => rfl
  | destructor => rfl

/-- The author of the cached text is the current input method, or there is no
current one. -/
def Authored (session : Session) : Prop :=
  ∀ inputMethod, author session.history = some inputMethod →
    session.manager.currentInputMethod = some inputMethod ∨
      session.manager.currentInputMethod = none

theorem authored_next (session : Session) (operation : Operation)
    (authored : Authored session) : Authored (session.next operation) := by
  intro inputMethod written
  cases operation with
  | createInputMethod created => exact authored inputMethod written
  | destroyInputMethod destroyed =>
      have before := authored inputMethod written
      simp only [manager_next, perform, destroyInputMethod_fields]
      split
      · exact Or.inr rfl
      · exact before
  | require required initialText =>
      simp only [manager_next, perform, require_fields]
      exact Or.inl written
  | bindController controller =>
      simp only [manager_next, perform, bindController_fields]
      exact authored inputMethod written
  | unbindController controller =>
      have before := authored inputMethod written
      simp only [manager_next, perform, unbindController_fields]
      split
      · exact before
      · exact before
  | updateInputText submitted =>
      simp only [Session.next, author] at written
      simp only [manager_next, perform, updateInputText_fields]
      split at written
      · rename_i present
        rw [if_pos present]
        exact Or.inl written
      · rename_i absent
        rw [if_neg absent]
        exact authored inputMethod written
  | destructor => exact authored inputMethod written

theorem authored_after {session : Session} (authored : Authored session)
    (operations : List Operation) :
    Authored (system.after session operations) := by
  induction operations generalizing session with
  | nil => exact authored
  | cons operation operations induction =>
      exact induction (authored_next session operation authored)

/-- The right manager is the left one, except for the cached text if that is
the text of the input method. -/
def Twins (secret : InputMethod) (left right : Session) : Prop :=
  ∃ text, right.manager = left.manager.retext text ∧
    (author left.history ≠ some secret →
      text = left.manager.cachedInitialText)

theorem twins_next {secret : InputMethod} {left right : Session}
    {leftOperation rightOperation : Operation}
    (twins : Twins secret left right)
    (same : SameButText secret left leftOperation rightOperation) :
    Twins secret (left.next leftOperation) (right.next rightOperation) := by
  obtain ⟨text, fields, equal⟩ := twins
  cases same with
  | same =>
      by_cases writes : left.manager.Writes leftOperation
      · refine ⟨_, ?_, fun _ => rfl⟩
        rw [manager_next, fields,
          perform_retext_of_writes left.manager text writes]
        rfl
      · refine ⟨text, ?_, fun other => ?_⟩
        · rw [manager_next, fields,
            perform_retext_of_keeps left.manager text writes]
          rfl
        · rw [author_of_keeps writes] at other
          rw [manager_next, cachedInitialText_of_keeps _ writes]
          exact equal other
  | require leftText rightText =>
      refine ⟨rightText, ?_, fun other => (other rfl).elim⟩
      rw [manager_next, fields]
      simp [perform, require_fields, retext]
  | updateInputText leftText rightText current =>
      refine ⟨rightText, ?_, fun other => ?_⟩
      · rw [manager_next, fields]
        simp [perform, updateInputText_fields, retext, current]
      · exact (other (by simp [Session.next, author, current])).elim

theorem twins_after {secret : InputMethod} {left right : Session}
    {lefts rights : List Operation} (twins : Twins secret left right)
    (same : SameButTexts secret left lefts rights) :
    Twins secret (system.after left lefts) (system.after right rights) := by
  induction same generalizing right with
  | nil => exact twins
  | cons head tail induction => exact induction (twins_next twins head)

theorem deliveries_congr {left right : Session}
    (same : right.manager = left.manager) (later : List Operation) :
    deliveries left later = deliveries right later := by
  induction later generalizing left right with
  | nil => rfl
  | cons operation later induction =>
      have sameNext : (right.next operation).manager =
          (left.next operation).manager := by
        rw [manager_next, manager_next, same]
      have tail := induction sameNext
      rw [deliveries, deliveries, Session.respond, Session.respond, same, tail]

private theorem delivers_lost (condition : Prop) [Decidable condition]
    (inputMethod : Option InputMethod) :
    (if condition then [Event.onFocusLost inputMethod] else []).filter
      Event.delivers = [] := by
  split <;> rfl

private theorem delivers_unbind (controller : Option InputMethodController) :
    (if controller.isSome then [Event.unbind controller] else []).filter
      Event.delivers = [] := by
  split <;> rfl

private theorem delivers_stop (manager : InputMethodManager) :
    manager.stopInputMethodApplicationIfNeeded.2.filter Event.delivers =
      [] := by
  rw [stopInputMethodApplicationIfNeeded]
  split <;> rfl

theorem delivers_nothing {session : Session} {operation : Operation}
    (notRequire : operation.isRequire = false)
    (bindsNothing : BindsNothing session operation) :
    (session.respond operation).filter Event.delivers = [] := by
  cases operation with
  | createInputMethod inputMethod => rfl
  | destroyInputMethod inputMethod =>
      simp only [Session.respond, perform, destroyInputMethod,
        List.filter_append]
      split
      · rw [delivers_stop]
        rfl
      · rfl
  | require inputMethod initialText => cases notRequire
  | bindController controller =>
      simp only [Session.respond, perform, bindController]
      split
      · rfl
      · rename_i differs
        have null : controller = none :=
          bindsNothing.resolve_right differs
        subst null
        rw [List.filter_append, List.filter_append, delivers_unbind]
        rfl
  | unbindController controller =>
      simp only [Session.respond, perform, unbindController]
      split
      · rfl
      · exact delivers_lost _ _
  | updateInputText submitted =>
      simp only [Session.respond, perform, updateInputText]
      split <;> rfl
  | destructor =>
      simp only [Session.respond, perform, destructor]
      rw [List.filter_append, delivers_lost, delivers_unbind]
      rfl

theorem delivers_cached {session : Session}
    {controller : InputMethodController}
    (differs : session.manager.currentInputMethodController ≠
      some controller) :
    (session.respond (.bindController (some controller))).filter
        Event.delivers =
      [.updateInitialText (some controller)
        session.manager.cachedInitialText] := by
  simp only [Session.respond, perform, bindController, if_neg differs,
    List.filter_append, delivers_unbind]
  rfl

/-- Without a current input method and without `Require`, there is none
afterwards and the cached text stays. -/
theorem current_next_of_none {session : Session} {operation : Operation}
    (none : session.manager.currentInputMethod = none)
    (notRequire : operation.isRequire = false) :
    (session.next operation).manager.currentInputMethod = Option.none ∧
      ¬session.manager.Writes operation := by
  cases operation with
  | createInputMethod inputMethod => exact ⟨none, id⟩
  | destroyInputMethod inputMethod =>
      refine ⟨?_, id⟩
      simp only [manager_next, perform, destroyInputMethod_fields]
      split
      · rfl
      · exact none
  | require inputMethod initialText => cases notRequire
  | bindController controller =>
      refine ⟨?_, id⟩
      simp only [manager_next, perform, bindController_fields]
      exact none
  | unbindController controller =>
      refine ⟨?_, id⟩
      simp only [manager_next, perform, unbindController_fields]
      split
      · exact none
      · exact none
  | updateInputText submitted =>
      constructor
      · simp only [manager_next, perform, updateInputText_fields, none]
        exact none
      · simp [Writes, none]
  | destructor => exact ⟨none, id⟩

section Continuations

variable {left right : Session} {text : Text}

/-- An operation of the part that the condition is about: nothing is handed
out, and the sessions still differ in the cached text alone. -/
private structure Continues (left right : Session) (text : Text)
    (operation : Operation) : Prop where
  fields : (right.next operation).manager =
    (left.next operation).manager.retext text
  none : (left.next operation).manager.currentInputMethod = none
  cached : (left.next operation).manager.cachedInitialText =
    left.manager.cachedInitialText
  leftSilent : (left.respond operation).filter Event.delivers = []
  rightSilent : (right.respond operation).filter Event.delivers = []

private theorem continues {operation : Operation}
    (fields : right.manager = left.manager.retext text)
    (none : left.manager.currentInputMethod = none)
    (notRequire : operation.isRequire = false)
    (bindsNothing : BindsNothing left operation) :
    Continues left right text operation := by
  obtain ⟨noneNext, keeps⟩ := current_next_of_none none notRequire
  have rightBindsNothing : BindsNothing right operation := by
    cases operation with
    | bindController controller =>
        rw [BindsNothing, fields]
        exact bindsNothing
    | _ => trivial
  constructor
  · rw [manager_next, fields,
      perform_retext_of_keeps left.manager text keeps]
    rfl
  · exact noneNext
  · exact cachedInitialText_of_keeps left.manager keeps
  · exact delivers_nothing notRequire bindsNothing
  · exact delivers_nothing notRequire rightBindsNothing

theorem deliveries_of_unread {later : List Operation}
    (fields : right.manager = left.manager.retext text)
    (none : left.manager.currentInputMethod = none)
    (unread : system.AllSteps BindsNothing left (untilRequire later)) :
    deliveries left later = deliveries right later := by
  induction later generalizing left right with
  | nil => rfl
  | cons operation later induction =>
      rw [deliveries, deliveries]
      cases isRequire : operation.isRequire with
      | true =>
          cases operation with
          | require inputMethod initialText =>
              have samePerform : right.manager.perform
                  (.require inputMethod initialText) =
                  left.manager.perform (.require inputMethod initialText) := by
                rw [fields]
                exact require_retext left.manager text inputMethod initialText
              have sameNext :
                  (right.next (.require inputMethod initialText)).manager =
                  (left.next (.require inputMethod initialText)).manager := by
                rw [manager_next, manager_next, samePerform]
              rw [deliveries_congr sameNext, Session.respond, Session.respond,
                samePerform]
          | _ => cases isRequire
      | false =>
          rw [untilRequire, List.takeWhile_cons_of_pos (by simp [isRequire])]
            at unread
          obtain ⟨bindsNothing, rest⟩ := unread
          have step := continues fields none isRequire bindsNothing
          rw [step.leftSilent, step.rightSilent,
            induction step.fields step.none rest]

/-- Two texts are told apart by a controller that is bound too early. -/
theorem unread_of_deliveries {later : List Operation}
    (fields : right.manager = left.manager.retext text)
    (none : left.manager.currentInputMethod = none)
    (differ : text ≠ left.manager.cachedInitialText)
    (same : deliveries left later = deliveries right later) :
    system.AllSteps BindsNothing left (untilRequire later) := by
  induction later generalizing left right with
  | nil => trivial
  | cons operation later induction =>
      cases isRequire : operation.isRequire with
      | true =>
          rw [untilRequire, List.takeWhile_cons_of_neg (by simp [isRequire])]
          trivial
      | false =>
          rw [untilRequire, List.takeWhile_cons_of_pos (by simp [isRequire])]
          rw [deliveries, deliveries] at same
          by_cases bindsNothing : BindsNothing left operation
          · have step := continues fields none isRequire bindsNothing
            rw [step.leftSilent, step.rightSilent] at same
            have differNext : text ≠
                (left.next operation).manager.cachedInitialText := by
              rw [step.cached]
              exact differ
            exact ⟨bindsNothing,
              induction step.fields step.none differNext same⟩
          · cases operation with
            | bindController controller =>
                simp only [BindsNothing, not_or] at bindsNothing
                obtain ⟨isSome, differs⟩ := bindsNothing
                obtain ⟨new, rfl⟩ := Option.ne_none_iff_exists'.mp isSome
                have rightDiffers :
                    right.manager.currentInputMethodController ≠
                      some new := by
                  rw [fields]
                  exact differs
                rw [delivers_cached differs, delivers_cached rightDiffers,
                  fields] at same
                simp only [List.cons_append, List.cons.injEq,
                  Event.updateInitialText.injEq] at same
                exact (differ same.1.2.symm).elim
            | _ => exact (bindsNothing trivial).elim

end Continuations

/-- Another text. -/
def mark (text : Text) : Text :=
  'x' :: text

/-- Every text that belongs to the input method is replaced. -/
def marked (secret : InputMethod) (session : Session) : Operation → Operation
  | .require inputMethod initialText =>
      if inputMethod = some secret then .require inputMethod (mark initialText)
      else .require inputMethod initialText
  | .updateInputText text =>
      if session.manager.currentInputMethod = some secret then
        .updateInputText (mark text)
      else .updateInputText text
  | operation => operation

def markedAll (secret : InputMethod) : Session → List Operation →
    List Operation
  | _, [] => []
  | session, operation :: operations =>
      marked secret session operation ::
        markedAll secret (session.next operation) operations

theorem sameButText_marked (secret : InputMethod) (session : Session)
    (operation : Operation) :
    SameButText secret session operation
      (marked secret session operation) := by
  cases operation with
  | require inputMethod initialText =>
      rw [marked]
      split
      · rename_i isSecret
        subst isSecret
        exact .require initialText (mark initialText)
      · exact .same _
  | updateInputText text =>
      rw [marked]
      split
      · rename_i current
        exact .updateInputText text (mark text) current
      · exact .same _
  | createInputMethod inputMethod => exact .same _
  | destroyInputMethod inputMethod => exact .same _
  | bindController controller => exact .same _
  | unbindController controller => exact .same _
  | destructor => exact .same _

theorem sameButTexts_markedAll (secret : InputMethod) (session : Session)
    (operations : List Operation) :
    SameButTexts secret session operations
      (markedAll secret session operations) := by
  induction operations generalizing session with
  | nil => exact .nil session
  | cons operation operations induction =>
      exact .cons (sameButText_marked secret session operation)
        (induction (session.next operation))

/-- What is cached when the texts are replaced. -/
def shown (secret : InputMethod) (session : Session) : Text :=
  if author session.history = some secret then
    mark session.manager.cachedInitialText
  else session.manager.cachedInitialText

theorem marked_next {secret : InputMethod} {left right : Session}
    (fields : right.manager = left.manager.retext (shown secret left))
    (operation : Operation) :
    (right.next (marked secret left operation)).manager =
      (left.next operation).manager.retext
        (shown secret (left.next operation)) := by
  by_cases writes : left.manager.Writes operation
  · cases operation with
    | require inputMethod initialText =>
        have written : author
            (left.next (.require inputMethod initialText)).history =
              inputMethod := rfl
        rw [shown, written, manager_next, manager_next, fields, marked]
        split
        · simp [perform, require_fields, retext]
        · simp [perform, require_fields, retext]
    | updateInputText text =>
        have present : left.manager.currentInputMethod.isSome := writes
        have written : author
            (left.next (.updateInputText text)).history =
              left.manager.currentInputMethod := if_pos present
        rw [shown, written, manager_next, manager_next, fields, marked]
        split
        · simp [perform, updateInputText_fields, retext, present]
        · simp [perform, updateInputText_fields, retext, present]
    | createInputMethod inputMethod => exact writes.elim
    | destroyInputMethod inputMethod => exact writes.elim
    | bindController controller => exact writes.elim
    | unbindController controller => exact writes.elim
    | destructor => exact writes.elim
  · have unmarked : marked secret left operation = operation := by
      cases operation with
      | require inputMethod initialText => exact (writes trivial).elim
      | updateInputText text =>
          have other : left.manager.currentInputMethod ≠ some secret := by
            intro current
            exact writes (by simp [Writes, current])
          exact if_neg other
      | _ => rfl
    have sameShown : shown secret (left.next operation) =
        shown secret left := by
      rw [shown, shown, author_of_keeps writes, manager_next,
        cachedInitialText_of_keeps left.manager writes]
    rw [unmarked, sameShown, manager_next, fields,
      perform_retext_of_keeps left.manager _ writes]
    rfl

theorem marked_after {secret : InputMethod} {left right : Session}
    (fields : right.manager = left.manager.retext (shown secret left))
    (operations : List Operation) :
    (system.after right (markedAll secret left operations)).manager =
      (system.after left operations).manager.retext
        (shown secret (system.after left operations)) := by
  induction operations generalizing left right with
  | nil => exact fields
  | cons operation operations induction =>
      exact induction (marked_next fields operation)

theorem afterDestruction_eq (secret : InputMethod)
    (operations : List Operation) :
    afterDestruction secret operations =
      (system.after system.start operations).next
        (.destroyInputMethod (some secret)) := by
  rw [afterDestruction, System.after_append]
  rfl

/-- The destruction carries a difference of the cached texts along. -/
private theorem destroyed_retext {left right : Session} {text : Text}
    (fields : right.manager = left.manager.retext text)
    (secret : InputMethod) :
    (right.next (.destroyInputMethod (some secret))).manager =
      (left.next (.destroyInputMethod (some secret))).manager.retext
        text := by
  rw [manager_next, fields]
  exact perform_retext_of_keeps left.manager text id

private theorem destroyed_none {session : Session} {secret : InputMethod}
    (authored : Authored session)
    (written : author session.history = some secret) :
    (session.next
      (.destroyInputMethod (some secret))).manager.currentInputMethod =
        none := by
  simp only [manager_next, perform, destroyInputMethod_fields]
  split
  · rfl
  · rename_i other
    exact (authored secret written).resolve_left other

/-- For every input method, every run up to its destruction and every
continuation: what the controllers are told in the continuation does not
depend on the texts of the input method if and only if no new controller is
bound while its text is cached. -/
theorem confidential_iff (secret : InputMethod)
    (operations later : List Operation) :
    Confidential secret operations later ↔
      Unread secret operations later := by
  have authored : Authored (system.after system.start operations) :=
    authored_after (by simp [Authored, author, system]) operations
  constructor
  · intro confidential written
    have same := confidential _
      (sameButTexts_markedAll secret system.start operations)
    have start : system.start.manager =
        system.start.manager.retext (shown secret system.start) := rfl
    have fields := marked_after start operations
    rw [shown, if_pos written] at fields
    rw [afterDestruction_eq] at same ⊢
    rw [afterDestruction_eq] at same
    refine unread_of_deliveries (destroyed_retext fields secret)
      (destroyed_none authored written) ?_ same
    rw [manager_next, cachedInitialText_of_keeps _ id]
    exact List.cons_ne_self _ _
  · intro unread others same
    have start : Twins secret system.start system.start :=
      ⟨_, rfl, fun _ => rfl⟩
    obtain ⟨text, fields, equal⟩ := twins_after start same
    rw [afterDestruction_eq, afterDestruction_eq]
    by_cases written : author
        (system.after system.start operations).history = some secret
    · have allUnread := unread written
      rw [afterDestruction_eq] at allUnread
      exact deliveries_of_unread (destroyed_retext fields secret)
        (destroyed_none authored written) allUnread
    · have keeps : ¬(system.after system.start operations).manager.Writes
          (.destroyInputMethod (some secret)) := id
      apply deliveries_congr
      rw [destroyed_retext fields secret, equal written, manager_next,
        ← cachedInitialText_of_keeps _ keeps]
      rfl

/-- The input method is destroyed while its text is cached, and the next
controller is told the text. -/
theorem destroyed_text_delivered :
    let operations : List Operation :=
      [.createInputMethod 0, .require (some 0) "secret".toList]
    system.Run system.start (operations ++
        [.destroyInputMethod (some 0), .bindController (some 7)]) ∧
      deliveries (afterDestruction 0 operations) [.bindController (some 7)] =
        [.updateInitialText (some 7) "secret".toList] ∧
      ¬Confidential 0 operations [.bindController (some 7)] := by
  intro operations
  refine ⟨by decide, by decide, fun confidential => ?_⟩
  have same : SameButTexts 0 system.start operations
      [.createInputMethod 0, .require (some 0) []] :=
    .cons (.same _) (.cons (.require _ _) (.nil _))
  have told := confidential _ same
  exact absurd told (by decide)

end QuickApp.TextInput
