import QuickApp.Ownership
import QuickApp.TaskQueue.Model

/-!
# How long the data of the queue lives

`TaskQueueData` is shared: the `UVTaskQueue` has a pointer to it, the async
handle inside it has one on the heap until the close callback deletes that,
every task runner is one, and so is every runner that a posted task has
captured.  The last kind lives inside the data itself.

Nothing uses the data after its destruction.  It is destroyed once the handle
is closed and no runner is left, unless a task that captured one was still
waiting: such a task keeps alive the queue it waits in.
-/

namespace QuickApp.TaskQueue.Lifetime

open QuickApp.Ownership

/-- Who has a pointer to the data. -/
inductive Owner (Thread Task : Type) where
  | queueData
  | handleData
  | runner (caller : Option Thread)
  | closure (task : Task)
  deriving DecidableEq

/-- The queue and the shared pointers to its data. -/
structure Owned (Thread Task : Type) where
  core : State Thread Task := {}
  data : Shared (Owner Thread Task) :=
    { useCount := 2, owners := [.queueData, .handleData] }

/-- `step` is a step of the queue.  `copyCaptured` is the running task taking a
copy of the runner it has captured. -/
inductive Event (Thread Task : Type) where
  | step (action : Action Thread Task)
  | getTaskRunner (caller : Option Thread)
  | copyRunner (caller other : Option Thread)
  | copyCaptured
  | dropRunner (caller : Option Thread)

variable {Thread Task : Type} [DecidableEq Thread] [DecidableEq Task]

/-- The running task has captured a runner. -/
def runsCapturing (captures : Task → Bool) : LoopState Task → Bool
  | .inTask task _ => captures task
  | _ => false

namespace Owned

variable (captures : Task → Bool) (owned : Owned Thread Task)

/-- What a step of the queue does to the shared pointers.  The task handed to
`PostTask` brings a copy of its runner along, which the push moves into the
vector. -/
def account : Action Thread Task → Shared (Owner Thread Task)
  | .postTask caller task =>
      if owned.core.running && captures task then
        owned.data.gain (.runner caller)
      else owned.data
  | .push caller =>
      match owned.core.callers caller with
      | some task =>
          if captures task then owned.data.hand (.runner caller) (.closure task)
          else owned.data
      | none => owned.data
  | .erase =>
      match owned.core.loop with
      | .inTask task _ =>
          if captures task then owned.data.lose (.closure task)
          else owned.data
      | _ => owned.data
  | .destroy => owned.data.lose .queueData
  | .closed => owned.data.lose .handleData
  | _ => owned.data

def next : Event Thread Task → Owned Thread Task
  | .step action =>
      { core := TaskQueue.next owned.core action
        data := owned.account captures action }
  | .getTaskRunner caller =>
      { owned with data := owned.data.gain (.runner caller) }
  | .copyRunner _ other =>
      { owned with data := owned.data.gain (.runner other) }
  | .copyCaptured => { owned with data := owned.data.gain (.runner none) }
  | .dropRunner caller =>
      { owned with data := owned.data.lose (.runner caller) }

/-- Who posts has a runner. -/
def hasRunner : Action Thread Task → Bool
  | .postTask caller _ => .runner caller ∈ owned.data.owners
  | _ => true

/-- A runner is kept until `PostTask` returns; the queue gives one out as long
as it is there. -/
def Enabled : Event Thread Task → Prop
  | .step action => TaskQueue.Enabled owned.core action ∧
      owned.hasRunner action
  | .getTaskRunner _ => owned.core.handle = .active
  | .copyRunner caller _ => .runner caller ∈ owned.data.owners
  | .copyCaptured => runsCapturing captures owned.core.loop
  | .dropRunner caller => .runner caller ∈ owned.data.owners ∧
      (owned.core.callers caller).isNone

instance Enabled.decidable (captures : Task → Bool)
    (owned : Owned Thread Task) :
    ∀ event, Decidable (owned.Enabled captures event)
  | .step _ => inferInstanceAs (Decidable (_ ∧ _ = true))
  | .getTaskRunner _ => inferInstanceAs (Decidable (_ = _))
  | .copyRunner _ _ => inferInstanceAs (Decidable (_ ∈ _))
  | .copyCaptured => inferInstanceAs (Decidable (_ = true))
  | .dropRunner _ => inferInstanceAs (Decidable (_ ∈ _ ∧ _ = true))

end Owned

/-- The runs of a queue together with all pointers to its data. -/
def ownedSystem (Thread : Type) [DecidableEq Thread]
    (captures : Task → Bool) :
    System (Owned Thread Task) (Event Thread Task) where
  start := {}
  enabled := Owned.Enabled captures
  next := Owned.next captures

instance ownedSystem.decidableEnabled (captures : Task → Bool)
    (owned : Owned Thread Task) (event : Event Thread Task) :
    Decidable ((ownedSystem Thread captures).enabled owned event) :=
  Owned.Enabled.decidable captures owned event

/-- The steps that read or write the data: its flag, its vector, the handle
in it or the pointer the handle has. -/
def Uses : Event Thread Task → Prop
  | .step (.postTask _ _) => True
  | .step (.push _) => True
  | .step .wake => True
  | .step .drop => True
  | .step .destroy => True
  | .step .closed => True
  | .getTaskRunner _ => True
  | .copyRunner _ _ => True
  | .copyCaptured => True
  | .dropRunner _ => True
  | _ => False

/-- The tasks that were pushed and not destroyed. -/
def kept (state : State Thread Task) : List Task :=
  state.loop.batch ++ state.queue

/-- The pointers there are: one of the queue and one of the handle while each
lasts, at least one of every caller inside `PostTask` and another one for what
its task has captured, and one for each task that has captured one. -/
structure Held (captures : Task → Bool) (owned : Owned Thread Task) : Prop where
  counted : owned.data.Counted
  queueData : owned.data.owners.count .queueData =
    if owned.core.handle = .active then 1 else 0
  handleData : owned.data.owners.count .handleData =
    if owned.core.handle = .closed then 0 else 1
  runner : ∀ caller task, owned.core.callers caller = some task →
    (if captures task then 2 else 1) ≤
      owned.data.owners.count (.runner caller)
  closure : ∀ task, owned.data.owners.count (.closure task) =
    if captures task then (kept owned.core).count task else 0
  idle : owned.core.handle = .closed → owned.core.loop.isIdle
  entered : owned.core.loop.isEntered → owned.core.handle = .active

theorem held_start (captures : Task → Bool) :
    Held captures (ownedSystem Thread captures).start where
  counted := ⟨rfl, rfl⟩
  queueData := by simp [ownedSystem]
  handleData := by simp [ownedSystem]
  runner := by simp [ownedSystem]
  closure := by simp [ownedSystem, kept, LoopState.batch]
  idle := by simp [ownedSystem]
  entered := by simp [ownedSystem, LoopState.isEntered]

section Steps

variable {captures : Task → Bool} {owned : Owned Thread Task}

private theorem held_gain (held : Held captures owned)
    {other : Owner Thread Task} (member : other ∈ owned.data.owners)
    (caller : Option Thread) :
    Held captures { owned with data := owned.data.gain (.runner caller) } where
  counted := held.counted.gain member _
  queueData := by simpa using held.queueData
  handleData := by simpa using held.handleData
  runner := by
    intro poster task inside
    have enough := held.runner poster task inside
    simp only [Shared.count_gain]
    omega
  closure := by simpa using held.closure
  idle := held.idle
  entered := held.entered

private theorem held_lose (held : Held captures owned)
    {caller : Option Thread} (member : .runner caller ∈ owned.data.owners)
    (outside : (owned.core.callers caller).isNone) :
    Held captures { owned with data := owned.data.lose (.runner caller) } where
  counted := held.counted.lose member
  queueData := by simpa using held.queueData
  handleData := by simpa using held.handleData
  runner := by
    intro poster task inside
    have other : caller ≠ poster := by
      rintro rfl
      have present : owned.core.callers caller = some task := inside
      simp [present] at outside
    simpa [other] using held.runner poster task inside
  closure := by simpa using held.closure
  idle := held.idle
  entered := held.entered

private theorem held_core (held : Held captures owned)
    {result : State Thread Task} (callers : result.callers = owned.core.callers)
    (handle : result.handle = owned.core.handle)
    (same : kept result = kept owned.core)
    (idle : result.handle = .closed → result.loop.isIdle)
    (entered : result.loop.isEntered → result.handle = .active) :
    Held captures { owned with core := result } where
  counted := held.counted
  queueData := by rw [handle]; exact held.queueData
  handleData := by rw [handle]; exact held.handleData
  runner := by rw [callers]; exact held.runner
  closure := by rw [same]; exact held.closure
  idle := idle
  entered := entered

private theorem member_runner (held : Held captures owned)
    {caller : Option Thread} {task : Task}
    (inside : owned.core.callers caller = some task) :
    .runner caller ∈ owned.data.owners := by
  have enough := held.runner caller task inside
  apply List.count_pos_iff.mp
  split at enough <;> omega

private theorem member_closure (held : Held captures owned)
    (capturing : runsCapturing captures owned.core.loop) :
    ∃ task, .closure task ∈ owned.data.owners := by
  cases loop : owned.core.loop with
  | inTask task rest =>
      rw [loop] at capturing
      have isCapturing : captures task := capturing
      refine ⟨task, List.count_pos_iff.mp ?_⟩
      rw [held.closure, if_pos isCapturing, kept, loop]
      simp [LoopState.batch]
  | _ => simp [loop, runsCapturing] at capturing

private theorem held_postTask (held : Held captures owned)
    {caller : Option Thread} {task : Task}
    (member : .runner caller ∈ owned.data.owners) :
    Held captures (owned.next captures (.step (.postTask caller task))) := by
  have present := List.count_pos_iff.mpr member
  cases running : owned.core.running with
  | false =>
      simpa [Owned.next, Owned.account, TaskQueue.next, State.checkRunning,
        running] using held
  | true =>
      cases isCapturing : captures task with
      | false =>
          simp only [Owned.next, Owned.account, TaskQueue.next,
            State.checkRunning, running, isCapturing]
          refine { held with runner := ?_ }
          intro poster posted inside
          by_cases same : poster = caller
          · subst same
            have isTask : task = posted := by simpa using inside
            subst isTask
            simpa [isCapturing] using present
          · exact held.runner poster posted
              (by simpa [Function.update_of_ne same] using inside)
      | true =>
          have gained := held_gain held member caller
          simp only [Owned.next, Owned.account, TaskQueue.next,
            State.checkRunning, running, isCapturing]
          refine { gained with runner := ?_ }
          intro poster posted inside
          by_cases same : poster = caller
          · subst same
            have isTask : task = posted := by simpa using inside
            subst isTask
            simp [isCapturing]
            omega
          · exact gained.runner poster posted
              (by simpa [Function.update_of_ne same] using inside)

omit [DecidableEq Task] in
private theorem lockedPush_fields (state : State Thread Task)
    (caller : Option Thread) (task : Task) :
    (state.lockedPush caller task).callers =
        Function.update state.callers caller none ∧
      (state.lockedPush caller task).queue = state.queue ++ [task] ∧
      (state.lockedPush caller task).handle = state.handle ∧
      (state.lockedPush caller task).loop = state.loop := by
  rw [State.lockedPush]
  split <;> exact ⟨rfl, rfl, rfl, rfl⟩

private theorem held_push (held : Held captures owned)
    {caller : Option Thread}
    (isEnabled : TaskQueue.Enabled owned.core (.push caller)) :
    Held captures (owned.next captures (.step (.push caller))) := by
  obtain ⟨task, inside, result⟩ := next_push isEnabled
  obtain ⟨callers, queue, handle, loop⟩ :=
    lockedPush_fields owned.core caller task
  have member := member_runner held inside
  have enough := held.runner caller task inside
  have pushed : kept (owned.core.lockedPush caller task) =
      kept owned.core ++ [task] := by
    rw [kept, queue, loop, kept, List.append_assoc]
  have others : ∀ poster posted, (owned.core.lockedPush caller task).callers
      poster = some posted →
        poster ≠ caller ∧ owned.core.callers poster = some posted := by
    intro poster posted
    rw [callers]
    by_cases same : poster = caller
    · simp [same]
    · simp [same]
  simp only [Owned.next, Owned.account, inside, result]
  cases isCapturing : captures task with
  | false =>
      simp only [Bool.false_eq_true, if_false]
      refine
        { counted := held.counted
          queueData := by rw [handle]; exact held.queueData
          handleData := by rw [handle]; exact held.handleData
          runner := fun poster posted isInside =>
            held.runner poster posted (others poster posted isInside).2
          closure := ?_
          idle := by rw [handle, loop]; exact held.idle
          entered := by rw [handle, loop]; exact held.entered }
      intro other
      rw [held.closure, pushed, List.count_append]
      by_cases same : task = other
      · simp [← same, isCapturing]
      · simp [List.count_eq_zero.mpr, Ne.symm same]
  | true =>
      simp only [if_true]
      refine
        { counted := held.counted.hand member _
          queueData := by rw [handle]; simpa using held.queueData
          handleData := by rw [handle]; simpa using held.handleData
          runner := ?_
          closure := ?_
          idle := by rw [handle, loop]; exact held.idle
          entered := by rw [handle, loop]; exact held.entered }
      · intro poster posted isInside
        obtain ⟨other, before⟩ := others poster posted isInside
        simpa [Ne.symm other] using held.runner poster posted before
      · intro other
        have before := held.closure other
        rw [pushed, List.count_append]
        by_cases same : task = other
        · subst same
          simp [before, isCapturing]
        · simp [before, same, List.count_eq_zero.mpr, Ne.symm same]

private theorem held_erase (held : Held captures owned)
    (isEnabled : TaskQueue.Enabled owned.core
      (.erase : Action Thread Task)) :
    Held captures (owned.next captures (.step .erase)) := by
  obtain ⟨task, rest, running⟩ := loop_of_isInTask isEnabled.1
  have notClosed : owned.core.handle ≠ .closed := by
    intro closed
    have idle := held.idle closed
    simp [running, LoopState.isIdle] at idle
  have before : kept owned.core = task :: (rest ++ owned.core.queue) := by
    simp [kept, running, LoopState.batch]
  simp only [Owned.next, Owned.account, TaskQueue.next, State.eraseCurrent,
    running]
  cases isCapturing : captures task with
  | false =>
      simp only [Bool.false_eq_true, if_false]
      refine
        { held with
          closure := ?_
          idle := fun closed => (notClosed closed).elim
          entered := by simp [LoopState.isEntered] }
      intro other
      rw [held.closure, before]
      by_cases same : task = other
      · simp [← same, isCapturing]
      · simp [kept, LoopState.batch, same]
  | true =>
      have counts := held.closure task
      have member : .closure task ∈ owned.data.owners := by
        apply List.count_pos_iff.mp
        rw [counts, before]
        simp [isCapturing]
      simp only [if_true]
      refine
        { counted := held.counted.lose member
          queueData := by simpa using held.queueData
          handleData := by simpa using held.handleData
          runner := by simpa using held.runner
          closure := ?_
          idle := fun closed => (notClosed closed).elim
          entered := by simp [LoopState.isEntered] }
      intro other
      rw [Shared.count_lose, held.closure, before]
      by_cases same : task = other
      · subst same
        simp [isCapturing, kept, LoopState.batch]
      · simp [kept, LoopState.batch, same]

private theorem held_destroy (held : Held captures owned)
    (isEnabled : TaskQueue.Enabled owned.core
      (.destroy : Action Thread Task)) :
    Held captures (owned.next captures (.step .destroy)) := by
  have isActive := isEnabled.1
  have one : owned.data.owners.count .queueData = 1 := by
    rw [held.queueData, if_pos isActive]
  have member : .queueData ∈ owned.data.owners := by
    apply List.count_pos_iff.mp
    omega
  have notEntered : ¬owned.core.loop.isEntered := by
    intro entered
    have isLoop := loop_of_isEntered entered
    simp [TaskQueue.Enabled, isLoop, LoopState.isIdle, LoopState.isInTask]
      at isEnabled
  exact
    { counted := held.counted.lose member
      queueData := by
        simp [Owned.next, Owned.account, TaskQueue.next, one]
      handleData := by
        simpa [Owned.next, Owned.account, TaskQueue.next, isActive]
          using held.handleData
      runner := by
        simpa [Owned.next, Owned.account, TaskQueue.next] using held.runner
      closure := by
        simpa [Owned.next, Owned.account, TaskQueue.next, kept]
          using held.closure
      idle := by simp [Owned.next, TaskQueue.next]
      entered := fun entered => (notEntered entered).elim }

private theorem held_closed (held : Held captures owned)
    (isEnabled : TaskQueue.Enabled owned.core
      (.closed : Action Thread Task)) :
    Held captures (owned.next captures (.step .closed)) := by
  obtain ⟨closing, isIdle⟩ := isEnabled
  have idle := loop_of_isIdle isIdle
  have one : owned.data.owners.count .handleData = 1 := by
    rw [held.handleData, closing]
    rfl
  have member : .handleData ∈ owned.data.owners := by
    apply List.count_pos_iff.mp
    omega
  exact
    { counted := held.counted.lose member
      queueData := by
        simpa [Owned.next, Owned.account, TaskQueue.next,
          State.closeCallback, closing] using held.queueData
      handleData := by
        simp [Owned.next, Owned.account, TaskQueue.next,
          State.closeCallback, one]
      runner := by
        simpa [Owned.next, Owned.account, TaskQueue.next,
          State.closeCallback] using held.runner
      closure := by
        simpa [Owned.next, Owned.account, TaskQueue.next,
          State.closeCallback, kept] using held.closure
      idle := fun _ => isIdle
      entered := by
        simp [Owned.next, TaskQueue.next, State.closeCallback, idle,
          LoopState.isEntered] }

private theorem held_step (held : Held captures owned)
    {action : Action Thread Task}
    (isEnabled : owned.Enabled captures (.step action)) :
    Held captures (owned.next captures (.step action)) := by
  obtain ⟨isEnabled, posts⟩ := isEnabled
  have notClosed : ¬owned.core.loop.isIdle → owned.core.handle ≠ .closed :=
    fun busy closed => busy (held.idle closed)
  cases action with
  | postTask caller task =>
      exact held_postTask held (of_decide_eq_true posts)
  | push caller => exact held_push held isEnabled
  | erase => exact held_erase held isEnabled
  | destroy => exact held_destroy held isEnabled
  | closed => exact held_closed held isEnabled
  | wake =>
      obtain ⟨_, isActive, isIdle⟩ := isEnabled
      have idle := loop_of_isIdle isIdle
      refine held_core held rfl rfl ?_ ?_ ?_
      · simp [kept, TaskQueue.next, idle, LoopState.batch]
      · simp [TaskQueue.next, isActive]
      · exact fun _ => isActive
  | drop =>
      have entered := loop_of_isEntered isEnabled
      have isActive := held.entered isEnabled
      simp only [Owned.next, TaskQueue.next, State.dropQueue]
      split
      · refine held_core held rfl rfl ?_ ?_ ?_
        · simp [kept, entered, LoopState.batch]
        · simp [isActive]
        · simp [LoopState.isEntered]
      · refine held_core held rfl rfl ?_ ?_ ?_
        · simp [kept, entered, LoopState.batch]
        · simp [isActive]
        · simp [LoopState.isEntered]
  | call =>
      obtain ⟨task, rest, draining⟩ := loop_of_hasNext isEnabled
      have isOpen := notClosed (by simp [draining, LoopState.isIdle])
      simp only [Owned.next, TaskQueue.next, State.callNext, draining]
      refine held_core held rfl rfl ?_ ?_ ?_
      · simp [kept, draining, LoopState.batch]
      · exact fun closed => (isOpen closed).elim
      · simp [LoopState.isEntered]
  | leave =>
      have atEnd := loop_of_atEnd isEnabled
      refine held_core held rfl rfl ?_ ?_ ?_
      · simp [kept, TaskQueue.next, atEnd, LoopState.batch]
      · exact fun _ => rfl
      · simp [TaskQueue.next, LoopState.isEntered]
  | closeLoop => exact held_core held rfl rfl rfl held.idle held.entered

theorem held_next (captures : Task → Bool) (owned : Owned Thread Task)
    (event : Event Thread Task) (held : Held captures owned)
    (isEnabled : owned.Enabled captures event) :
    Held captures (owned.next captures event) := by
  cases event with
  | step action => exact held_step held isEnabled
  | getTaskRunner caller =>
      have isActive : owned.core.handle = .active := isEnabled
      have one := held.queueData
      rw [if_pos isActive] at one
      have member : .queueData ∈ owned.data.owners := by
        apply List.count_pos_iff.mp
        omega
      exact held_gain held member caller
  | copyRunner caller other => exact held_gain held isEnabled other
  | copyCaptured =>
      obtain ⟨task, member⟩ := member_closure held isEnabled
      exact held_gain held member none
  | dropRunner caller =>
      exact held_lose held isEnabled.1 isEnabled.2

end Steps

/-- Whoever uses the data has a pointer to it, or is called by a handle that
has one. -/
private theorem member_of_uses {captures : Task → Bool}
    {owned : Owned Thread Task} (held : Held captures owned)
    {event : Event Thread Task} (isEnabled : owned.Enabled captures event)
    (uses : Uses event) : ∃ owner, owner ∈ owned.data.owners := by
  have handleData : owned.core.handle ≠ .closed →
      .handleData ∈ owned.data.owners := by
    intro isOpen
    apply List.count_pos_iff.mp
    rw [held.handleData, if_neg isOpen]
    exact Nat.one_pos
  have active : owned.core.handle = .active →
      .handleData ∈ owned.data.owners := by
    intro isActive
    exact handleData (by simp [isActive])
  cases event with
  | getTaskRunner caller => exact ⟨_, active isEnabled⟩
  | copyRunner caller other => exact ⟨_, isEnabled⟩
  | copyCaptured =>
      obtain ⟨task, member⟩ := member_closure held isEnabled
      exact ⟨_, member⟩
  | dropRunner caller => exact ⟨_, isEnabled.1⟩
  | step action =>
      obtain ⟨isEnabled, posts⟩ := isEnabled
      cases action with
      | postTask caller task => exact ⟨_, of_decide_eq_true posts⟩
      | push caller =>
          obtain ⟨task, inside, _⟩ := next_push isEnabled
          exact ⟨_, member_runner held inside⟩
      | wake => exact ⟨_, active isEnabled.2.1⟩
      | drop => exact ⟨_, active (held.entered isEnabled)⟩
      | destroy => exact ⟨_, active isEnabled.1⟩
      | closed => exact ⟨_, handleData (by simp [isEnabled.1])⟩
      | _ => exact uses.elim

/-- Every run: whatever uses the data of the queue finds it there, it is
destroyed at most once, and its count is that of the pointers held to it. -/
theorem data_used_alive (captures : Task → Bool)
    {events : List (Event Thread Task)}
    (run : (ownedSystem Thread captures).Run
      (ownedSystem Thread captures).start events) :
    ((ownedSystem Thread captures).AllSteps
        (fun owned event => Uses event → owned.data.destroyed = 0)
        (ownedSystem Thread captures).start events) ∧
      ((ownedSystem Thread captures).after
        (ownedSystem Thread captures).start events).data.destroyed ≤ 1 ∧
      Held captures ((ownedSystem Thread captures).after
        (ownedSystem Thread captures).start events) := by
  constructor
  · have unconditional : (ownedSystem Thread captures).RunWhen
        (fun _ _ => True) (ownedSystem Thread captures).start events :=
      run.imp fun _ _ isEnabled => ⟨isEnabled, trivial⟩
    refine unconditional.allSteps
      (fun owned event held isEnabled _ =>
        held_next captures owned event held isEnabled)
      (fun owned event held isEnabled _ uses => ?_) (held_start captures)
    obtain ⟨owner, member⟩ := member_of_uses held isEnabled uses
    exact held.counted.alive member
  · have held := run.invariant (held_next captures) (held_start captures)
    exact ⟨held.counted.destroyed_le, held⟩

/-- The run of a task that posts itself again. -/
theorem data_used_alive_reposted :
    let events : List (Event (Fin 1) Nat) :=
      [.getTaskRunner (some 0), .step (.postTask (some 0) 7),
        .step (.push (some 0)), .dropRunner (some 0), .step .wake,
        .step .drop, .step .call, .copyCaptured, .step .destroy,
        .step (.postTask none 7), .step (.push none), .dropRunner none,
        .step .erase, .step .leave, .step .closed]
    ((ownedSystem (Fin 1) fun _ => true).after
      (ownedSystem (Fin 1) fun _ => true).start events).data.destroyed ≤ 1 := by
  intro events
  have run : (ownedSystem (Fin 1) fun _ => true).Run
      (ownedSystem (Fin 1) fun _ => true).start events := by decide
  exact (data_used_alive (fun _ => true) run).2.1

private theorem waits_next {captures : Task → Bool} {owned : Owned Thread Task}
    (held : Held captures owned) (closed : owned.core.handle = .closed)
    {event : Event Thread Task} (isEnabled : owned.Enabled captures event) :
    (owned.next captures event).core.handle = .closed ∧
      owned.core.queue <+: (owned.next captures event).core.queue := by
  have idle := loop_of_isIdle (held.idle closed)
  cases event with
  | step action =>
      obtain ⟨isEnabled, _⟩ := isEnabled
      simp only [Owned.next]
      cases action with
      | postTask caller task =>
          simp only [TaskQueue.next, State.checkRunning]
          split
          · exact ⟨closed, List.prefix_rfl⟩
          · exact ⟨closed, List.prefix_rfl⟩
      | push caller =>
          obtain ⟨task, _, result⟩ := next_push isEnabled
          obtain ⟨_, queue, handle, _⟩ :=
            lockedPush_fields owned.core caller task
          rw [result, handle, queue]
          exact ⟨closed, List.prefix_append _ _⟩
      | wake =>
          have active := isEnabled.2.1
          rw [closed] at active
          cases active
      | destroy =>
          have active := isEnabled.1
          rw [closed] at active
          cases active
      | closed =>
          have closing := isEnabled.1
          rw [closed] at closing
          cases closing
      | closeLoop => exact ⟨closed, List.prefix_rfl⟩
      | drop => simp [TaskQueue.Enabled, idle, LoopState.isEntered] at isEnabled
      | call => simp [TaskQueue.Enabled, idle, LoopState.hasNext] at isEnabled
      | erase => simp [TaskQueue.Enabled, idle, LoopState.isInTask] at isEnabled
      | leave => simp [TaskQueue.Enabled, idle, LoopState.atEnd] at isEnabled
  | _ => exact ⟨closed, List.prefix_rfl⟩

private theorem destroyed_iff {captures : Task → Bool}
    {owned : Owned Thread Task} (held : Held captures owned)
    (closed : owned.core.handle = .closed) :
    owned.data.destroyed = 1 ↔
      (∀ caller, .runner caller ∉ owned.data.owners) ∧
        ∀ task ∈ owned.core.queue, captures task = false := by
  have idle := loop_of_isIdle (held.idle closed)
  have waiting : kept owned.core = owned.core.queue := by
    simp [kept, idle, LoopState.batch]
  rw [held.counted.destroyed_iff]
  constructor
  · intro nobody
    refine ⟨by simp [nobody], fun task member => ?_⟩
    have counts := held.closure task
    rw [nobody, List.count_nil, waiting] at counts
    by_contra isCapturing
    rw [Bool.not_eq_false] at isCapturing
    rw [if_pos isCapturing] at counts
    exact List.count_eq_zero.mp counts.symm member
  · rintro ⟨noRunner, noClosure⟩
    apply List.eq_nil_iff_forall_not_mem.mpr
    intro owner member
    have present := List.count_pos_iff.mpr member
    cases owner with
    | runner caller => exact noRunner caller member
    | queueData =>
        rw [held.queueData, closed] at present
        cases present
    | handleData =>
        rw [held.handleData, if_pos closed] at present
        cases present
    | closure task =>
        rw [held.closure, waiting] at present
        cases isCapturing : captures task with
        | false => simp [isCapturing] at present
        | true =>
            rw [if_pos isCapturing] at present
            have member := List.count_pos_iff.mp present
            cases isCapturing.symm.trans (noClosure task member)

/-- Once the handle is closed, the data has been destroyed if and only if no
runner is left outside and no task that waits has captured one; such a task
waits for good, and so does the data. -/
theorem data_destroyed_iff (captures : Task → Bool)
    {owned : Owned Thread Task}
    (reachable : (ownedSystem Thread captures).Reachable owned)
    (closed : owned.core.handle = .closed) :
    (owned.data.destroyed = 1 ↔
      (∀ caller, .runner caller ∉ owned.data.owners) ∧
        ∀ task ∈ owned.core.queue, captures task = false) ∧
    ∀ task ∈ owned.core.queue, captures task = true →
      ∀ events, (ownedSystem Thread captures).Run owned events →
        task ∈ ((ownedSystem Thread captures).after owned
            events).core.queue ∧
          ((ownedSystem Thread captures).after owned
            events).data.destroyed = 0 := by
  have held : Held captures owned :=
    reachable.invariant (held_start captures) (held_next captures)
  refine ⟨destroyed_iff held closed, ?_⟩
  intro task member isCapturing events run
  have kept : ∀ (later : Owned Thread Task) (event : Event Thread Task),
      Held captures later ∧ later.core.handle = .closed ∧
        task ∈ later.core.queue →
      later.Enabled captures event →
      Held captures (later.next captures event) ∧
        (later.next captures event).core.handle = .closed ∧
        task ∈ (later.next captures event).core.queue := by
    rintro later event ⟨held, closed, waits⟩ isEnabled
    obtain ⟨stillClosed, queue⟩ := waits_next held closed isEnabled
    exact ⟨held_next captures later event held isEnabled, stillClosed,
      queue.subset waits⟩
  obtain ⟨laterHeld, laterClosed, waits⟩ :=
    run.invariant kept ⟨held, closed, member⟩
  refine ⟨waits, ?_⟩
  have atMost := laterHeld.counted.destroyed_le
  have notOnce : ¬((ownedSystem Thread captures).after owned
      events).data.destroyed = 1 := by
    rw [destroyed_iff laterHeld laterClosed]
    rintro ⟨_, noClosure⟩
    cases isCapturing.symm.trans (noClosure task waits)
  omega

/-- A posted task still waits when the queue is destroyed. -/
def postAndClose : List (Event (Fin 1) Nat) :=
  [.getTaskRunner (some 0), .step (.postTask (some 0) 7),
    .step (.push (some 0)), .dropRunner (some 0), .step .destroy,
    .step .closed]

/-- The data goes with the handle, or stays for good if the waiting task has
captured a runner. -/
theorem data_destroyed_iff_waiting :
    ((ownedSystem (Fin 1) fun _ => false).after
        (ownedSystem (Fin 1) fun _ => false).start
        postAndClose).data.destroyed = 1 ∧
      ∀ events, (ownedSystem (Fin 1) fun _ => true).Run
          ((ownedSystem (Fin 1) fun _ => true).after
            (ownedSystem (Fin 1) fun _ => true).start postAndClose) events →
        ((ownedSystem (Fin 1) fun _ => true).after
          ((ownedSystem (Fin 1) fun _ => true).after
            (ownedSystem (Fin 1) fun _ => true).start postAndClose)
          events).data.destroyed = 0 := by
  constructor
  · refine (data_destroyed_iff (fun _ => false)
      ⟨postAndClose, by decide, rfl⟩ rfl).1.mpr ⟨?_, fun _ _ => rfl⟩
    intro caller member
    cases member
  · intro events run
    exact ((data_destroyed_iff (fun _ => true)
      ⟨postAndClose, by decide, rfl⟩ rfl).2 7 (List.mem_singleton.mpr rfl) rfl
        events run).2

end QuickApp.TaskQueue.Lifetime
