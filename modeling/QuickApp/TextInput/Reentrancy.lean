import Mathlib.Data.List.Count
import QuickApp.TextInput.Manager

/-!
# Callbacks that require another input method

`Require` notifies the input method that loses the focus before it stores the
new one.  A focus-lost callback that calls `Require` again therefore starts
from the old state.

The recursion through the callbacks is bounded by `fuel`; a call returns when
some amount of it is enough.
-/

namespace QuickApp.TextInput

/-- What `focus_lost_` of each input method does: nothing, or a call of
`Require` with an initial text. -/
abbrev FocusLostCallbacks := InputMethod → Option (InputMethod × Text)

namespace InputMethodManager

/-- `Require` from the assignment of `current_input_method_` on; `lost` are
the events before it. -/
def requireAfter (manager : InputMethodManager) (lost : List Event)
    (inputMethod : Option InputMethod) (initialText : Text) :
    InputMethodManager × List Event :=
  let (manager, started) := startInputMethodApplicationIfNeeded
    { manager with
      currentInputMethod := inputMethod
      cachedInitialText := initialText }
  (manager, lost ++ .required inputMethod initialText :: started ++
    manager.updateInitialText)

/-- `Require` when the callback of the current input method runs inside it. -/
def requireWith (callbacks : FocusLostCallbacks) :
    Nat → InputMethodManager → Option InputMethod → Text →
      Option (InputMethodManager × List Event)
  | 0, _, _, _ => none
  | fuel + 1, manager, inputMethod, initialText =>
      if manager.currentInputMethod.isSome ∧
          manager.currentInputMethod ≠ inputMethod then
        match manager.currentInputMethod.bind callbacks with
        | none =>
            some (manager.requireAfter
              [.onFocusLost manager.currentInputMethod]
              inputMethod initialText)
        | some (target, text) =>
            (requireWith callbacks fuel manager (some target) text).map
              fun (after, events) =>
                after.requireAfter
                  (.onFocusLost manager.currentInputMethod :: events)
                  inputMethod initialText
      else
        some (manager.requireAfter [] inputMethod initialText)

section Calls

variable {callbacks : FocusLostCallbacks} {manager : InputMethodManager}

theorem requireWith_eq_require {inputMethod : Option InputMethod}
    (quiet : ∀ current ∈ manager.currentInputMethod,
      some current = inputMethod ∨ callbacks current = none)
    (initialText : Text) (fuel : Nat) :
    requireWith callbacks (fuel + 1) manager inputMethod initialText =
      some (manager.require inputMethod initialText) := by
  rw [requireWith, require]
  split
  · rename_i loses
    obtain ⟨current, isCurrent⟩ := Option.isSome_iff_exists.mp loses.1
    have different : some current ≠ inputMethod := by
      rw [← isCurrent]
      exact loses.2
    have nothing := (quiet current isCurrent).resolve_left different
    rw [isCurrent, Option.bind_some, nothing]
    rfl
  · rfl

/-- A nested call finds the same current input method and calls its callback
once more. -/
theorem requireWith_eq_none {current target : InputMethod} {text : Text}
    (isCurrent : manager.currentInputMethod = some current)
    (calls : callbacks current = some (target, text))
    (other : target ≠ current) {inputMethod : Option InputMethod}
    (loses : inputMethod ≠ some current) (initialText : Text) (fuel : Nat) :
    requireWith callbacks fuel manager inputMethod initialText = none := by
  induction fuel generalizing inputMethod initialText with
  | zero => rfl
  | succ fuel induction =>
      have notSame : some target ≠ some current := by
        intro same
        exact other (Option.some.inj same)
      rw [requireWith, if_pos ⟨by rw [isCurrent]; rfl, by
        rw [isCurrent]
        exact loses.symm⟩]
      have nested := induction notSame text
      rw [isCurrent, Option.bind_some, calls]
      simp only [nested, Option.map_none]

end Calls

end InputMethodManager

/-- An input method is made current. -/
def Event.makesCurrent (inputMethod : InputMethod) : Event → Bool
  | .required current _ => current == some inputMethod
  | _ => false

/-- The callbacks require live input methods only, each of a lower rank than
the one that calls. -/
structure Ranked (callbacks : FocusLostCallbacks) (live : Finset InputMethod) :
    Prop where
  live : ∀ inputMethod target text,
    callbacks inputMethod = some (target, text) → target ∈ live
  ranked : ∃ rank : InputMethod → Nat, ∀ inputMethod target text,
    callbacks inputMethod = some (target, text) →
      rank target < rank inputMethod

/-- The call returns, a live input method is current then, and none has lost
the focus more often than it had it. -/
def Settles (callbacks : FocusLostCallbacks) (live : Finset InputMethod)
    (manager : InputMethodManager) (inputMethod : InputMethod)
    (initialText : Text) : Prop :=
  ∃ fuel next events,
    manager.requireWith callbacks fuel (some inputMethod) initialText =
      some (next, events) ∧
    (∃ current ∈ live, next.currentInputMethod = some current) ∧
    ∀ other, events.count (.onFocusLost (some other)) ≤
      events.countP (Event.makesCurrent other) +
        if manager.currentInputMethod = some other then 1 else 0

/-- The input method that loses the focus, if any does, requires nothing. -/
def LosesQuietly (callbacks : FocusLostCallbacks)
    (manager : InputMethodManager) (inputMethod : InputMethod) : Prop :=
  ∀ current ∈ manager.currentInputMethod,
    current = inputMethod ∨ callbacks current = none

section Settling

variable {callbacks : FocusLostCallbacks} {live : Finset InputMethod}
  {manager : InputMethodManager} {inputMethod : InputMethod}
  {initialText : Text}

theorem count_onFocusLost_require (manager : InputMethodManager)
    (inputMethod : Option InputMethod) (initialText : Text)
    (other : InputMethod) :
    (manager.require inputMethod initialText).2.count
        (.onFocusLost (some other)) ≤
      if manager.currentInputMethod = some other then 1 else 0 := by
  have noStart : ∀ manager : InputMethodManager,
      manager.startInputMethodApplicationIfNeeded.2.count
        (.onFocusLost (some other)) = 0 := by
    intro manager
    apply List.count_eq_zero.mpr
    intro member
    cases InputMethodManager.eq_of_mem_start member
  have noUpdate : ∀ manager : InputMethodManager,
      manager.updateInitialText.count (.onFocusLost (some other)) = 0 := by
    intro manager
    apply List.count_eq_zero.mpr
    intro member
    cases InputMethodManager.eq_of_mem_updateInitialText member
  have notRequired : ¬Event.required inputMethod initialText =
      .onFocusLost (some other) := by
    intro same
    cases same
  simp only [InputMethodManager.require, List.count_append,
    List.count_cons_of_ne notRequired, noStart, noUpdate, Nat.add_zero]
  split
  · rw [List.count_singleton]
    simp
  · exact Nat.zero_le _

theorem settles_of_losesQuietly (isLive : inputMethod ∈ live)
    (quiet : LosesQuietly callbacks manager inputMethod) :
    Settles callbacks live manager inputMethod initialText := by
  have isQuiet : ∀ current ∈ manager.currentInputMethod,
      some current = some inputMethod ∨ callbacks current = none := by
    intro current isCurrent
    exact (quiet current isCurrent).imp_left (congrArg some)
  have returned := InputMethodManager.requireWith_eq_require isQuiet
    initialText 0
  refine ⟨1, (manager.require (some inputMethod) initialText).1,
    (manager.require (some inputMethod) initialText).2, returned, ?_, ?_⟩
  · refine ⟨inputMethod, isLive, ?_⟩
    rw [InputMethodManager.require_fields]
  · intro other
    have few := count_onFocusLost_require manager (some inputMethod)
      initialText other
    omega

/-- A lower rank is another input method, so a callback that requires one is
called again and again. -/
theorem losesQuietly_of_settles (ranked : Ranked callbacks live)
    (settles : Settles callbacks live manager inputMethod initialText) :
    LosesQuietly callbacks manager inputMethod := by
  intro current isCurrent
  by_contra neither
  obtain ⟨different, requires⟩ := not_or.mp neither
  obtain ⟨⟨target, text⟩, calls⟩ := Option.ne_none_iff_exists'.mp requires
  obtain ⟨rank, lower⟩ := ranked.ranked
  have descends := lower current target text calls
  have other : target ≠ current := by
    rintro rfl
    exact Nat.lt_irrefl _ descends
  have loses : some inputMethod ≠ some current := by
    intro same
    exact different (Option.some.inj same).symm
  obtain ⟨fuel, next, events, returned, _⟩ := settles
  have never := InputMethodManager.requireWith_eq_none isCurrent calls other
    loses initialText fuel
  rw [never] at returned
  cases returned

end Settling

/-- Whatever the ranked callbacks are, `Require` settles if and only if the
input method that loses the focus requires nothing itself. -/
theorem require_settles_iff (callbacks : FocusLostCallbacks)
    (live : Finset InputMethod) (manager : InputMethodManager)
    (inputMethod : InputMethod) (initialText : Text)
    (ranked : Ranked callbacks live) (isLive : inputMethod ∈ live) :
    Settles callbacks live manager inputMethod initialText ↔
      LosesQuietly callbacks manager inputMethod := by
  constructor
  · exact losesQuietly_of_settles ranked
  · exact settles_of_losesQuietly isLive

/-- The callback of the first of three input methods requires the third. -/
def chainCallbacks : FocusLostCallbacks :=
  fun inputMethod => if inputMethod = 2 then some (0, []) else none

theorem ranked_chainCallbacks : Ranked chainCallbacks {0, 1, 2} := by
  constructor
  · intro inputMethod target text calls
    rw [chainCallbacks] at calls
    split at calls
    · cases calls
      decide
    · cases calls
  · refine ⟨id, ?_⟩
    intro inputMethod target text calls
    rw [chainCallbacks] at calls
    split at calls
    · rename_i isTwo
      cases calls
      rw [isTwo]
      exact Nat.two_pos
    · cases calls

/-- The input method with the callback takes the focus from another. -/
theorem require_settles_chain :
    Settles chainCallbacks {0, 1, 2} { currentInputMethod := some 1 } 2 [] :=
  (require_settles_iff chainCallbacks {0, 1, 2}
    { currentInputMethod := some 1 } 2 [] ranked_chainCallbacks
    (by decide)).mpr fun current isCurrent => by
      cases isCurrent
      exact .inr rfl

/-- When it loses the focus to another, the call does not return. -/
theorem require_never_returns :
    Ranked chainCallbacks {0, 1, 2} ∧
      (∀ fuel, InputMethodManager.requireWith chainCallbacks fuel
        { currentInputMethod := some 2 } (some 1) [] = none) ∧
      ¬Settles chainCallbacks {0, 1, 2} { currentInputMethod := some 2 }
        1 [] := by
  have never : ∀ fuel, InputMethodManager.requireWith chainCallbacks fuel
      { currentInputMethod := some 2 } (some 1) [] = none := by
    intro fuel
    exact InputMethodManager.requireWith_eq_none rfl rfl (by decide)
      (by decide) [] fuel
  refine ⟨ranked_chainCallbacks, never, ?_⟩
  rintro ⟨fuel, next, events, returned, _⟩
  rw [never fuel] at returned
  cases returned

end QuickApp.TextInput
