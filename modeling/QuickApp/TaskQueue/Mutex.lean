import Mathlib.Logic.Function.Basic
import QuickApp.Transition

/-!
# The value behind a mutex

`Mutex<T>` hands its value out in two ways: `lock` returns a guard that keeps
the mutex locked while it lives, and `drop` returns a reference after its own
guard is gone.  Taking and releasing the mutex and each read and write of the
value are steps of their own here, for any number of threads.

Every access through a guard, `reset` or `rest` is made by the thread that
holds the mutex.  An access through the reference of `drop` never is.
-/

namespace QuickApp.TaskQueue.Mutexes

/-- A call of a member function. -/
inductive Operation (T : Type) where
  | reset (val : T)
  | rest (val : T)
  | drop
  | lock

/-- Where a thread is.  `storing` and `stored` are before and after the
assignment of `reset` and `rest`; `dropping` is inside `drop`, `referring`
after it returned; `moving` holds the contents a move has read and not yet
emptied; `guarding` holds what was read through the guard, if anything. -/
inductive Phase (T : Type) where
  | outside
  | storing (val : T)
  | stored
  | dropping
  | referring
  | moving (contents : T)
  | guarding (seen : Option T)

namespace Phase

variable {T : Type}

def isOutside : Phase T → Bool
  | .outside => true
  | _ => false

def isStoring : Phase T → Bool
  | .storing _ => true
  | _ => false

def isGuarding : Phase T → Bool
  | .guarding _ => true
  | _ => false

/-- The guard was read through. -/
def hasSeen : Phase T → Bool
  | .guarding (some _) => true
  | _ => false

def isReferring : Phase T → Bool
  | .referring => true
  | _ => false

def isMoving : Phase T → Bool
  | .moving _ => true
  | _ => false

/-- The assignment is made, the reference is formed, or the guard goes. -/
def mayRelease : Phase T → Bool
  | .stored => true
  | .dropping => true
  | .guarding _ => true
  | _ => false

/-- Between the lock and the unlock of `mutex_`. -/
def holds : Phase T → Bool
  | .storing _ => true
  | .stored => true
  | .dropping => true
  | .guarding _ => true
  | _ => false

/-- Where a thread is after it unlocked the mutex. -/
def released : Phase T → Phase T
  | .dropping => .referring
  | _ => .outside

end Phase

/-- Where a thread is after it locked the mutex. -/
def Operation.entered {T : Type} : Operation T → Phase T
  | .reset val => .storing val
  | .rest val => .storing val
  | .drop => .dropping
  | .lock => .guarding none

/-- One step of a thread.  `take` and `empty` are the two halves of a move out
of the reference that `drop` returned, which `discard` leaves unused; `write`
changes what was read through the guard. -/
inductive Action (Thread T U : Type) where
  | acquire (thread : Thread) (operation : Operation T)
  | store (thread : Thread)
  | read (thread : Thread)
  | write (thread : Thread) (update : U)
  | release (thread : Thread)
  | take (thread : Thread)
  | empty (thread : Thread)
  | discard (thread : Thread)

/-- What the protected type provides: an update through a guard, and what a
move leaves behind. -/
structure Values (T U : Type) where
  apply : U → T → T
  emptied : T

/-- `mutex_`, `value_`, the threads, and what was written through guards and
moved out so far. -/
structure State (Thread T U : Type) where
  value : T
  owner : Option Thread := none
  phase : Thread → Phase T := fun _ => .outside
  updates : List U := []
  moved : List T := []

section Model

variable {Thread T U : Type} [DecidableEq Thread]

/-- When a thread may take a step. -/
def Enabled (state : State Thread T U) : Action Thread T U → Prop
  | .acquire thread _ =>
      state.owner = none ∧ (state.phase thread).isOutside
  | .store thread => (state.phase thread).isStoring
  | .read thread => (state.phase thread).isGuarding
  | .write thread _ => (state.phase thread).hasSeen
  | .release thread => (state.phase thread).mayRelease
  | .take thread => (state.phase thread).isReferring
  | .empty thread => (state.phase thread).isMoving
  | .discard thread => (state.phase thread).isReferring

instance Enabled.decidable (state : State Thread T U) :
    ∀ action, Decidable (Enabled state action)
  | .acquire _ _ => inferInstanceAs (Decidable (_ ∧ _ = true))
  | .store _ => inferInstanceAs (Decidable (_ = true))
  | .read _ => inferInstanceAs (Decidable (_ = true))
  | .write _ _ => inferInstanceAs (Decidable (_ = true))
  | .release _ => inferInstanceAs (Decidable (_ = true))
  | .take _ => inferInstanceAs (Decidable (_ = true))
  | .empty _ => inferInstanceAs (Decidable (_ = true))
  | .discard _ => inferInstanceAs (Decidable (_ = true))

def State.moveTo (state : State Thread T U) (thread : Thread)
    (phase : Phase T) : State Thread T U :=
  { state with phase := Function.update state.phase thread phase }

/-- The state after a step. -/
def next (values : Values T U) (state : State Thread T U) :
    Action Thread T U → State Thread T U
  | .acquire thread operation =>
      { state.moveTo thread operation.entered with owner := some thread }
  | .store thread =>
      match state.phase thread with
      | .storing val => { state.moveTo thread .stored with value := val }
      | _ => state
  | .read thread => state.moveTo thread (.guarding (some state.value))
  | .write thread update =>
      match state.phase thread with
      | .guarding (some seen) =>
          { state.moveTo thread (.guarding none) with
            value := values.apply update seen
            updates := state.updates ++ [update] }
      | _ => state
  | .release thread =>
      { state.moveTo thread (state.phase thread).released with owner := none }
  | .take thread => state.moveTo thread (.moving state.value)
  | .empty thread =>
      match state.phase thread with
      | .moving contents =>
          { state.moveTo thread .outside with
            value := values.emptied
            moved := state.moved ++ [contents] }
      | _ => state
  | .discard thread => state.moveTo thread .outside

/-- All interleavings of the threads that use one `Mutex<T>`. -/
def system (Thread : Type) [DecidableEq Thread] (values : Values T U)
    (initial : T) : System (State Thread T U) (Action Thread T U) where
  start := { value := initial }
  enabled := Enabled
  next := next values

instance system.decidableEnabled (values : Values T U) (initial : T)
    (state : State Thread T U) (action : Action Thread T U) :
    Decidable ((system Thread values initial).enabled state action) :=
  Enabled.decidable state action

/-- The thread that reads or writes `value_` in a step. -/
def Action.accessor : Action Thread T U → Option Thread
  | .store thread => some thread
  | .read thread => some thread
  | .write thread _ => some thread
  | .take thread => some thread
  | .empty thread => some thread
  | _ => none

/-- `value_` is read or written by the thread that holds `mutex_`. -/
def Guarded (state : State Thread T U) (action : Action Thread T U) : Prop :=
  ∀ thread, action.accessor = some thread → state.owner = some thread

/-- Nothing is written through a guard while a move is between its read and
its emptying. -/
def Undivided (state : State Thread T U) : Action Thread T U → Prop
  | .write _ _ => ∀ thread, ¬(state.phase thread).isMoving
  | _ => True

/-- Both: what the mutex is for. -/
def Protected (state : State Thread T U) (action : Action Thread T U) :
    Prop :=
  Guarded state action ∧ Undivided state action

/-- The reference that `drop` returned is not used. -/
def Unused (_ : State Thread T U) : Action Thread T U → Prop
  | .take _ => False
  | _ => True

/-- The mutex belongs to the thread inside a locked region, and no move has
begun. -/
structure Locked (state : State Thread T U) : Prop where
  owner : ∀ thread, (state.phase thread).holds ↔ state.owner = some thread
  noMove : ∀ thread, ¬(state.phase thread).isMoving

theorem locked_start (values : Values T U) (initial : T) :
    Locked (system Thread values initial).start where
  owner := by simp [system, Phase.holds]
  noMove := by simp [system, Phase.isMoving]

private theorem locked_within {state result : State Thread T U}
    (locked : Locked state) {thread : Thread} {phase : Phase T}
    (owner : result.owner = state.owner)
    (phases : result.phase = Function.update state.phase thread phase)
    (same : phase.holds = (state.phase thread).holds)
    (notMoving : phase.isMoving = false) : Locked result := by
  constructor
  · intro other
    rw [phases, owner]
    by_cases here : other = thread
    · subst here
      rw [Function.update_self, same]
      exact locked.owner other
    · rw [Function.update_of_ne here]
      exact locked.owner other
  · intro other
    rw [phases]
    by_cases here : other = thread
    · subst here
      rw [Function.update_self, notMoving]
      exact Bool.false_ne_true
    · rw [Function.update_of_ne here]
      exact locked.noMove other

private theorem locked_acquire {state : State Thread T U} {thread : Thread}
    {operation : Operation T} (values : Values T U) (locked : Locked state)
    (free : state.owner = none) :
    Locked (next values state (.acquire thread operation)) := by
  constructor
  · intro other
    by_cases here : other = thread
    · subst here
      cases operation <;> simp [next, State.moveTo, Operation.entered,
        Phase.holds]
    · have notHolding : ¬(state.phase other).holds = true := by
        rw [locked.owner other, free]
        exact Option.some_ne_none other |>.symm
      simp [next, State.moveTo, Function.update_of_ne here, notHolding,
        Ne.symm here]
  · intro other
    by_cases here : other = thread
    · subst here
      cases operation <;> simp [next, State.moveTo, Operation.entered,
        Phase.isMoving]
    · simp only [next, State.moveTo, Function.update_of_ne here]
      exact locked.noMove other

private theorem locked_release {state : State Thread T U} {thread : Thread}
    (values : Values T U) (locked : Locked state)
    (mayRelease : (state.phase thread).mayRelease) :
    Locked (next values state (.release thread)) := by
  have holding : (state.phase thread).holds := by
    cases phase : state.phase thread with
    | stored => rfl
    | dropping => rfl
    | guarding seen => rfl
    | _ => simp [phase, Phase.mayRelease] at mayRelease
  have owner := (locked.owner thread).mp holding
  constructor
  · intro other
    by_cases here : other = thread
    · subst here
      cases phase : state.phase other <;>
        simp [next, State.moveTo, phase, Phase.released, Phase.holds]
    · have notHolding : ¬(state.phase other).holds = true := by
        rw [locked.owner other, owner, Option.some.injEq]
        exact Ne.symm here
      simp [next, State.moveTo, Function.update_of_ne here, notHolding]
  · intro other
    by_cases here : other = thread
    · subst here
      cases phase : state.phase other <;>
        simp [next, State.moveTo, phase, Phase.released, Phase.isMoving]
    · simp only [next, State.moveTo, Function.update_of_ne here]
      exact locked.noMove other

theorem locked_next (values : Values T U) (state : State Thread T U)
    (action : Action Thread T U) (locked : Locked state)
    (isEnabled : Enabled state action) (unused : Unused state action) :
    Locked (next values state action) := by
  cases action with
  | acquire thread operation => exact locked_acquire values locked isEnabled.1
  | store thread =>
      cases phase : state.phase thread with
      | storing val =>
          simp only [next, phase]
          exact locked_within locked rfl rfl (by rw [phase]; rfl) rfl
      | _ => simp [Enabled, phase, Phase.isStoring] at isEnabled
  | read thread =>
      cases phase : state.phase thread with
      | guarding seen =>
          exact locked_within locked rfl rfl (by rw [phase]; rfl) rfl
      | _ => simp [Enabled, phase, Phase.isGuarding] at isEnabled
  | write thread update =>
      cases phase : state.phase thread with
      | guarding seen =>
          cases seen with
          | none => simp [Enabled, phase, Phase.hasSeen] at isEnabled
          | some seen =>
              simp only [next, phase]
              exact locked_within locked rfl rfl (by rw [phase]; rfl) rfl
      | _ => simp [Enabled, phase, Phase.hasSeen] at isEnabled
  | release thread => exact locked_release values locked isEnabled
  | take thread => exact unused.elim
  | empty thread => exact (locked.noMove thread isEnabled).elim
  | discard thread =>
      cases phase : state.phase thread with
      | referring =>
          exact locked_within locked rfl rfl (by rw [phase]; rfl) rfl
      | _ => simp [Enabled, phase, Phase.isReferring] at isEnabled

omit [DecidableEq Thread] in
/-- As long as no move has begun, a step is protected exactly when it does not
begin one. -/
theorem protected_iff {state : State Thread T U} {action : Action Thread T U}
    (locked : Locked state) (isEnabled : Enabled state action) :
    Protected state action ↔ Unused state action := by
  have holder (thread : Thread) (holds : (state.phase thread).holds) :
      ∀ accessor, some thread = some accessor →
        state.owner = some accessor := by
    intro accessor same
    rw [← same]
    exact (locked.owner thread).mp holds
  cases action with
  | acquire thread operation =>
      refine iff_of_true ⟨?_, trivial⟩ trivial
      intro accessor none
      cases none
  | release thread =>
      refine iff_of_true ⟨?_, trivial⟩ trivial
      intro accessor none
      cases none
  | discard thread =>
      refine iff_of_true ⟨?_, trivial⟩ trivial
      intro accessor none
      cases none
  | store thread =>
      refine iff_of_true ⟨holder thread ?_, trivial⟩ trivial
      cases phase : state.phase thread with
      | storing val => rfl
      | _ => simp [Enabled, phase, Phase.isStoring] at isEnabled
  | read thread =>
      refine iff_of_true ⟨holder thread ?_, trivial⟩ trivial
      cases phase : state.phase thread with
      | guarding seen => rfl
      | _ => simp [Enabled, phase, Phase.isGuarding] at isEnabled
  | write thread update =>
      refine iff_of_true ⟨holder thread ?_, locked.noMove⟩ trivial
      cases phase : state.phase thread with
      | guarding seen => rfl
      | _ => simp [Enabled, phase, Phase.hasSeen] at isEnabled
  | take thread =>
      refine iff_of_false ?_ id
      intro ⟨guarded, _⟩
      have holds := (locked.owner thread).mpr (guarded thread rfl)
      cases phase : state.phase thread with
      | referring => simp [phase, Phase.holds] at holds
      | _ => simp [Enabled, phase, Phase.isReferring] at isEnabled
  | empty thread => exact (locked.noMove thread isEnabled).elim

/-- Every run of any number of threads: each read and write of the value is
made by the thread that holds the mutex, and no write falls into a move, if
and only if no reference that `drop` returned is used. -/
theorem mutex_protects_iff (values : Values T U) (initial : T)
    {actions : List (Action Thread T U)}
    (run : (system Thread values initial).Run
      (system Thread values initial).start actions) :
    (system Thread values initial).AllSteps Protected
        (system Thread values initial).start actions ↔
      (system Thread values initial).AllSteps Unused
        (system Thread values initial).start actions := by
  apply run.allSteps_congr (locked_next values) ?_
    (locked_start values initial)
  intro state action locked isEnabled
  exact protected_iff locked isEnabled

end Model

/-- `push_back`, and what a move leaves of a vector. -/
def tasks : Values (List Nat) Nat where
  apply task queue := queue ++ [task]
  emptied := []

/-- Two pushes, one after the other. -/
theorem mutex_protects_pushes :
    (system (Fin 2) tasks []).AllSteps Protected
      (system (Fin 2) tasks []).start
      [.acquire 0 .lock, .read 0, .write 0 7, .release 0, .acquire 1 .lock,
        .read 1, .write 1 8, .release 1] :=
  (mutex_protects_iff tasks [] (by decide)).mpr (by
    refine ⟨trivial, trivial, trivial, trivial, trivial, trivial, trivial,
      trivial, trivial⟩)

/-- The loop thread has read the empty vector through the reference that
`drop` returned, a task is pushed, and the vector is emptied: the task is
neither in the queue nor among what was moved out. -/
theorem push_lost_in_move :
    let actions : List (Action (Fin 2) (List Nat) Nat) :=
      [.acquire 0 .drop, .release 0, .take 0, .acquire 1 .lock, .read 1,
        .write 1 7, .release 1, .empty 0]
    let last := (system (Fin 2) tasks []).after
      (system (Fin 2) tasks []).start actions
    (system (Fin 2) tasks []).Run (system (Fin 2) tasks []).start actions ∧
      last.updates = [7] ∧ last.moved = [[]] ∧ last.value = [] ∧
      ¬(system (Fin 2) tasks []).AllSteps Protected
        (system (Fin 2) tasks []).start actions := by
  intro actions last
  refine ⟨by decide, rfl, rfl, rfl, ?_⟩
  intro ⟨_, _, ⟨guarded, _⟩, _⟩
  cases guarded 0 rfl

end QuickApp.TaskQueue.Mutexes
