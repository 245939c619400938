import Mathlib.Data.List.Nodup
import QuickApp.Permission.Manager

/-!
# Notifications of the observers

`requirePermission` and `requirePermissionBlock` notify every observer when a
request is made and when its result is known.  The first one leaves out
`need_block` when it announces a request, and reports a result without a
client that its requester is not given; the second one passes everything.
-/

namespace QuickApp.Permission.Observers

/-- One request as it was made, with the observers and the client of that
moment, and what came of it: the calls made on its behalf, the results its
requester was given, and the closure as long as it was not called. -/
structure Inquiry where
  request : Request
  needBlock : Bool
  blocking : Bool
  observers : List Observer
  client : Option Client
  calls : List Call
  given : List Int
  closure : Option (ResultCallback Unit)

/-- What reaches the base class. -/
inductive Event where
  | setClient (client : Option Client)
  | addObserver
  | require (request : Request) (needBlock : Bool)
  | requireBlock (request : Request) (decision : Int)
  | reply (number : Nat) (result : Int)

/-- The manager and the requests in the order they were made. -/
structure State where
  manager : PermissionManagerImpl := {}
  inquiries : List Inquiry := []

/-- The closure is called: `result_cb(result)` comes first, then the observers
are notified. -/
def Inquiry.answer (manager : PermissionManagerImpl) (result : Int)
    (inquiry : Inquiry) : Inquiry :=
  match inquiry.closure with
  | none => inquiry
  | some closure =>
      { inquiry with
        calls := inquiry.calls ++
          manager.runCallback (fun _ _ => []) closure result
        given := inquiry.given ++ [result]
        closure := none }

namespace State

variable (state : State)

/-- `requirePermission`. -/
def require (request : Request) (needBlock : Bool) : Inquiry :=
  let (calls, closure) := state.manager.requirePermission request needBlock ()
    state.inquiries.length
  { request
    needBlock
    blocking := false
    observers := state.manager.observers
    client := state.manager.client
    calls
    given := []
    closure }

/-- `requirePermissionBlock`. -/
def requireBlock (request : Request) (decision : Int) : Inquiry :=
  let (calls, result) := state.manager.requirePermissionBlock request decision
  { request
    needBlock := true
    blocking := true
    observers := state.manager.observers
    client := state.manager.client
    calls
    given := [result]
    closure := none }

/-- Every observer is an object of its own, so a new one gets a new number. -/
def next : Event → State
  | .setClient client => { state with manager := state.manager.setClient client }
  | .addObserver =>
      { state with
        manager := state.manager.addObserver state.manager.observers.length }
  | .require request needBlock =>
      { state with
        inquiries := state.inquiries ++ [state.require request needBlock] }
  | .requireBlock request decision =>
      { state with
        inquiries := state.inquiries ++
          [state.requireBlock request decision] }
  | .reply number result =>
      { state with
        inquiries := state.inquiries.modify number
          (Inquiry.answer state.manager result) }

/-- A client replies once, to a request it was given. -/
def Enabled : Event → Prop
  | .reply number _ =>
      (state.inquiries[number]?).any fun inquiry => inquiry.closure.isSome
  | _ => True

instance Enabled.decidable (state : State) :
    ∀ event, Decidable (State.Enabled state event)
  | .reply _ _ => inferInstanceAs (Decidable (_ = true))
  | .setClient _ => .isTrue trivial
  | .addObserver => .isTrue trivial
  | .require _ _ => .isTrue trivial
  | .requireBlock _ _ => .isTrue trivial

end State

def system : System State Event where
  start := {}
  enabled := State.Enabled
  next := State.next

instance system.decidableEnabled (state : State) (event : Event) :
    Decidable (system.enabled state event) :=
  State.Enabled.decidable state event

/-- A notification of an observer. -/
def Notifies (observer : Observer) : Call → Bool
  | .onPermissionRequire notified _ _ => notified == observer
  | .onPermssionResult notified _ _ _ => notified == observer
  | _ => false

def notices (observer : Observer) (calls : List Call) : List Call :=
  calls.filter (Notifies observer)

/-- An observer sees the request as it was made and then, once, the result
that the requester was given. -/
def Inquiry.Paired (inquiry : Inquiry) (observer : Observer) : Prop :=
  ∃ result,
    notices observer inquiry.calls =
        [.onPermissionRequire observer inquiry.request inquiry.needBlock,
          .onPermssionResult observer inquiry.request result
            inquiry.needBlock] ∧
      inquiry.given = [result]

def Inquiry.Matched (inquiry : Inquiry) : Prop :=
  ∀ observer ∈ inquiry.observers, inquiry.Paired observer

/-- The observers of every request are shown a matched pair. -/
def AllMatched (state : State) : Prop :=
  ∀ inquiry ∈ state.inquiries, inquiry.Matched

/-- Every closure was called. -/
def Complete (state : State) : Prop :=
  ∀ inquiry ∈ state.inquiries, inquiry.closure = none

/-- Nobody observes, or the request needs no blocking and a client is set. -/
def Regular (state : State) : Event → Prop
  | .require _ needBlock =>
      state.manager.observers = [] ∨
        needBlock = false ∧ state.manager.client ≠ none
  | _ => True

/-- The same, read off a request that was made. -/
def Inquiry.Regular (inquiry : Inquiry) : Prop :=
  inquiry.blocking ∨ inquiry.observers = [] ∨
    inquiry.needBlock = false ∧ inquiry.client ≠ none

@[simp] theorem notices_append (observer : Observer) (left right : List Call) :
    notices observer (left ++ right) =
      notices observer left ++ notices observer right :=
  List.filter_append left right

private theorem filter_map_observers {observers : List Observer}
    (distinct : observers.Nodup) {observer : Observer}
    (member : observer ∈ observers) (notify : Observer → Call)
    (notifies : ∀ other, Notifies observer (notify other) = (other == observer)) :
    notices observer (observers.map notify) = [notify observer] := by
  have same : Notifies observer ∘ notify = (· == observer) :=
    funext notifies
  rw [notices, List.filter_map, same, List.filter_beq,
    List.count_eq_one_of_mem distinct member]
  rfl

section Notifications

variable {manager : PermissionManagerImpl} {observer : Observer}

theorem notices_onPermissionRequire (distinct : manager.observers.Nodup)
    (member : observer ∈ manager.observers) (request : Request)
    (needBlock : Bool) :
    notices observer (manager.onPermissionRequire request needBlock) =
      [.onPermissionRequire observer request needBlock] :=
  filter_map_observers distinct member
    (fun notified => .onPermissionRequire notified request needBlock)
    fun _ => rfl

theorem notices_onPermssionResult (distinct : manager.observers.Nodup)
    (member : observer ∈ manager.observers) (request : Request)
    (result : Int) (needBlock : Bool) :
    notices observer (manager.onPermssionResult request result needBlock) =
      [.onPermssionResult observer request result needBlock] :=
  filter_map_observers distinct member
    (fun notified => .onPermssionResult notified request result needBlock)
    fun _ => rfl

theorem notices_runCallback (distinct : manager.observers.Nodup)
    (member : observer ∈ manager.observers) (closure : ResultCallback Unit)
    (result : Int) :
    notices observer
        (manager.runCallback (fun _ _ => []) closure result) =
      [.onPermssionResult observer closure.request result
        closure.needBlock] := by
  rw [PermissionManagerImpl.runCallback, List.nil_append]
  exact notices_onPermssionResult distinct member _ _ _

end Notifications

/-- A request that waits for the client has announced itself without blocking;
a request that is done is matched exactly when it is regular. -/
structure Tracked (manager : PermissionManagerImpl) (inquiry : Inquiry) :
    Prop where
  known : ∀ observer ∈ inquiry.observers, observer ∈ manager.observers
  waiting : ∀ closure, inquiry.closure = some closure →
    closure.request = inquiry.request ∧
      closure.needBlock = inquiry.needBlock ∧
      inquiry.blocking = false ∧ inquiry.client ≠ none ∧
      inquiry.given = [] ∧
      ∀ observer ∈ inquiry.observers, notices observer inquiry.calls =
        [.onPermissionRequire observer inquiry.request false]
  done : inquiry.closure = none → (inquiry.Matched ↔ inquiry.Regular)

/-- The observers are distinct and every request is tracked. -/
structure Consistent (state : State) : Prop where
  distinct : state.manager.observers =
    List.range state.manager.observers.length
  tracked : ∀ inquiry ∈ state.inquiries, Tracked state.manager inquiry

theorem Consistent.nodup {state : State} (consistent : Consistent state) :
    state.manager.observers.Nodup := by
  rw [consistent.distinct]
  exact List.nodup_range

theorem Tracked.mono {before later : PermissionManagerImpl}
    {inquiry : Inquiry} (tracked : Tracked before inquiry)
    (grows : ∀ observer ∈ before.observers, observer ∈ later.observers) :
    Tracked later inquiry where
  known observer member := grows observer (tracked.known observer member)
  waiting := tracked.waiting
  done := tracked.done

/-- No observer: nothing to match, and nothing to ask for. -/
private theorem matched_iff_of_pairs {inquiry : Inquiry} {good : Prop}
    (pairs : ∀ observer ∈ inquiry.observers,
      inquiry.Paired observer ↔ good) :
    inquiry.Matched ↔ inquiry.observers = [] ∨ good := by
  constructor
  · intro matched
    cases observers : inquiry.observers with
    | nil => exact Or.inl rfl
    | cons observer others =>
        have member : observer ∈ inquiry.observers := by simp [observers]
        exact Or.inr ((pairs observer member).mp (matched observer member))
  · rintro (none | isGood) observer member
    · rw [none] at member
      cases member
    · exact (pairs observer member).mpr isGood

theorem tracked_require {state : State} (consistent : Consistent state)
    (request : Request) (needBlock : Bool) :
    Tracked state.manager (state.require request needBlock) := by
  have nodup := consistent.nodup
  cases client : state.manager.client with
  | none =>
      constructor
      · intro observer member
        exact member
      · intro closure waits
        simp [State.require, PermissionManagerImpl.requirePermission,
          client] at waits
      · intro _
        have noPair : ∀ observer ∈
            (state.require request needBlock).observers,
            (state.require request needBlock).Paired observer ↔ False := by
          intro observer _
          simp [Inquiry.Paired, State.require,
            PermissionManagerImpl.requirePermission, client]
        rw [matched_iff_of_pairs noPair, Inquiry.Regular]
        simp [State.require, client]
  | some current =>
      constructor
      · intro observer member
        exact member
      · intro closure waits
        simp only [State.require, PermissionManagerImpl.requirePermission,
          client, Option.some.injEq] at waits
        subst waits
        refine ⟨rfl, rfl, rfl, by simp [State.require, client], rfl,
          fun observer member => ?_⟩
        simp only [State.require, PermissionManagerImpl.requirePermission,
          client]
        rw [notices_append, notices_onPermissionRequire nodup member]
        rfl
      · intro done
        simp [State.require, PermissionManagerImpl.requirePermission,
          client] at done

theorem tracked_requireBlock {state : State} (consistent : Consistent state)
    (request : Request) (decision : Int) :
    Tracked state.manager (state.requireBlock request decision) := by
  have nodup := consistent.nodup
  constructor
  · intro observer member
    exact member
  · intro closure waits
    simp [State.requireBlock] at waits
  · intro _
    refine iff_of_true (fun observer member => ?_) (Or.inl rfl)
    cases client : state.manager.client with
    | none =>
        refine ⟨DENIED, ?_, ?_⟩
        · simp only [State.requireBlock,
            PermissionManagerImpl.requirePermissionBlock, client]
          rw [notices_append, notices_onPermissionRequire nodup member,
            notices_onPermssionResult nodup member]
          rfl
        · simp only [State.requireBlock,
            PermissionManagerImpl.requirePermissionBlock, client]
    | some current =>
        refine ⟨decision, ?_, ?_⟩
        · simp only [State.requireBlock,
            PermissionManagerImpl.requirePermissionBlock, client]
          rw [notices_append, notices_onPermissionRequire nodup member]
          have rest := notices_onPermssionResult nodup member request
            decision true
          simp only [notices, List.filter_cons, Notifies] at rest ⊢
          rw [rest]
          rfl
        · simp only [State.requireBlock,
            PermissionManagerImpl.requirePermissionBlock, client]

theorem tracked_answer {manager : PermissionManagerImpl} {inquiry : Inquiry}
    (nodup : manager.observers.Nodup) (tracked : Tracked manager inquiry)
    (result : Int) : Tracked manager (inquiry.answer manager result) := by
  cases waits : inquiry.closure with
  | none => simpa [Inquiry.answer, waits] using tracked
  | some closure =>
      obtain ⟨sameRequest, sameBlock, notBlocking, present, nothing, seen⟩ :=
        tracked.waiting closure waits
      have answered : inquiry.answer manager result =
          { inquiry with
            calls := inquiry.calls ++
              manager.runCallback (fun _ _ => []) closure result
            given := [result]
            closure := none } := by
        simp [Inquiry.answer, waits, nothing]
      rw [answered]
      constructor
      · exact tracked.known
      · intro other none
        cases none
      · intro _
        have pairs : ∀ observer ∈ inquiry.observers,
            Inquiry.Paired
              { inquiry with
                calls := inquiry.calls ++
                  manager.runCallback (fun _ _ => []) closure result
                given := [result]
                closure := none } observer ↔ inquiry.needBlock = false := by
          intro observer member
          have known := tracked.known observer member
          have pair : notices observer (inquiry.calls ++
              manager.runCallback (fun _ _ => []) closure result) =
              [.onPermissionRequire observer inquiry.request false,
                .onPermssionResult observer inquiry.request result
                  inquiry.needBlock] := by
            rw [notices_append, seen observer member,
              notices_runCallback nodup known, sameRequest, sameBlock]
            rfl
          rw [Inquiry.Paired, pair]
          constructor
          · intro ⟨reported, same, _⟩
            simp only [List.cons.injEq, Call.onPermissionRequire.injEq]
              at same
            exact same.1.2.2.symm
          · intro notNeeded
            exact ⟨result, by rw [notNeeded], rfl⟩
        rw [matched_iff_of_pairs pairs, Inquiry.Regular]
        simp [notBlocking, present]

section Modify

variable {α : Type} {holds : α → Prop} {change : α → α}

private theorem forall_mem_modify
    (kept : ∀ item, holds item → holds (change item)) {items : List α}
    (all : ∀ item ∈ items, holds item) (index : Nat) :
    ∀ item ∈ items.modify index change, holds item := by
  induction items generalizing index with
  | nil => simp
  | cons head items induction =>
      obtain ⟨first, rest⟩ := List.forall_mem_cons.mp all
      cases index with
      | zero =>
          rw [List.modify_zero_cons]
          exact List.forall_mem_cons.mpr ⟨kept head first, rest⟩
      | succ index =>
          rw [List.modify_succ_cons]
          exact List.forall_mem_cons.mpr ⟨first, induction rest index⟩

private theorem forall_mem_modify_iff
    (same : ∀ item, holds (change item) ↔ holds item) (items : List α)
    (index : Nat) :
    (∀ item ∈ items.modify index change, holds item) ↔
      ∀ item ∈ items, holds item := by
  induction items generalizing index with
  | nil => simp
  | cons head items induction =>
      cases index with
      | zero =>
          rw [List.modify_zero_cons, List.forall_mem_cons, same,
            List.forall_mem_cons]
      | succ index =>
          rw [List.modify_succ_cons, List.forall_mem_cons, induction,
            List.forall_mem_cons]

end Modify

private theorem answer_regular (manager : PermissionManagerImpl)
    (result : Int) (inquiry : Inquiry) :
    (inquiry.answer manager result).Regular ↔ inquiry.Regular := by
  rw [Inquiry.answer]
  split
  · rfl
  · rfl

theorem consistent_start : Consistent system.start where
  distinct := rfl
  tracked := by simp [system]

theorem consistent_next (state : State) (event : Event)
    (consistent : Consistent state) : Consistent (state.next event) := by
  have nodup := consistent.nodup
  obtain ⟨distinct, tracked⟩ := consistent
  cases event with
  | setClient client =>
      constructor
      · exact distinct
      · intro inquiry member
        exact (tracked inquiry member).mono fun _ known => known
  | addObserver =>
      constructor
      · simp only [State.next, PermissionManagerImpl.addObserver,
          List.length_append, List.length_singleton, List.range_succ,
          ← distinct]
      · intro inquiry member
        exact (tracked inquiry member).mono fun _ known =>
          List.mem_append_left _ known
  | require request needBlock =>
      constructor
      · exact distinct
      · intro inquiry member
        cases List.mem_append.mp member with
        | inl old => exact tracked inquiry old
        | inr new =>
            rw [List.eq_of_mem_singleton new]
            exact tracked_require ⟨distinct, tracked⟩ request needBlock
  | requireBlock request decision =>
      constructor
      · exact distinct
      · intro inquiry member
        cases List.mem_append.mp member with
        | inl old => exact tracked inquiry old
        | inr new =>
            rw [List.eq_of_mem_singleton new]
            exact tracked_requireBlock ⟨distinct, tracked⟩ request decision
  | reply number result =>
      constructor
      · exact distinct
      · have kept (inquiry : Inquiry)
            (known : Tracked state.manager inquiry) :
            Tracked state.manager (inquiry.answer state.manager result) :=
          tracked_answer nodup known result
        exact forall_mem_modify kept tracked number

theorem regular_next_iff (state : State) (event : Event) :
    (∀ inquiry ∈ (state.next event).inquiries, inquiry.Regular) ↔
      (∀ inquiry ∈ state.inquiries, inquiry.Regular) ∧
        Regular state event := by
  cases event with
  | setClient client => simp [State.next, Regular]
  | addObserver => simp [State.next, Regular]
  | require request needBlock =>
      simp only [State.next, List.forall_mem_append,
        List.forall_mem_singleton]
      apply and_congr_right'
      simp [Inquiry.Regular, State.require, Regular]
  | requireBlock request decision =>
      simp only [State.next, List.forall_mem_append,
        List.forall_mem_singleton]
      apply and_congr_right'
      simp [Inquiry.Regular, State.requireBlock, Regular]
  | reply number result =>
      rw [and_iff_left (by trivial)]
      exact forall_mem_modify_iff (answer_regular state.manager result)
        state.inquiries number

/-- Every run at whose end every closure was called: each observer of each
request sees a matched pair if and only if, whenever somebody observes,
`requirePermission` is called without `need_block` and with a client. -/
theorem matched_iff {events : List Event}
    (run : system.Run system.start events)
    (complete : Complete (system.after system.start events)) :
    AllMatched (system.after system.start events) ↔
      system.AllSteps Regular system.start events := by
  have consistent : Consistent (system.after system.start events) :=
    run.invariant
      (fun state event consistent _ => consistent_next state event consistent)
      consistent_start
  have startRegular :
      ∀ inquiry ∈ system.start.inquiries, inquiry.Regular := by
    simp [system]
  calc
    _ ↔ ∀ inquiry ∈ (system.after system.start events).inquiries,
          inquiry.Regular := by
      apply forall₂_congr
      intro inquiry member
      exact (consistent.tracked inquiry member).done
        (complete inquiry member)
    _ ↔ (∀ inquiry ∈ system.start.inquiries, inquiry.Regular) ∧
          system.AllSteps Regular system.start events :=
      run.holds_iff
        (fun state => ∀ inquiry ∈ state.inquiries, inquiry.Regular)
        (fun _ _ (_ : True) _ => trivial)
        (fun state event _ _ => regular_next_iff state event) trivial
    _ ↔ _ := and_iff_right startRegular

/-- A request and its answer. -/
def location : Request :=
  ⟨"com.a".toList, 0, "vela.permission.LOCATION".toList, "get".toList⟩

/-- A client, an observer and a request that does not block: one pair. -/
theorem matched_asynchronous :
    AllMatched (system.after system.start
      [.setClient (some 0), .addObserver, .require location false,
        .reply 0 GRANTED]) := by
  have complete : Complete (system.after system.start
      [.setClient (some 0), .addObserver, .require location false,
        .reply 0 GRANTED]) := by
    intro inquiry member
    exact List.eq_of_mem_singleton member ▸ rfl
  exact (matched_iff (by decide) complete).mpr
    ⟨trivial, trivial, Or.inr ⟨rfl, by decide⟩, trivial, trivial⟩

/-- A blocking request is announced as one that does not block; without a
client, a result is reported that the requester is not given. -/
theorem unmatched_requests :
    (system.Run system.start
        [.setClient (some 0), .addObserver, .require location true,
          .reply 0 GRANTED] ∧
      ¬AllMatched (system.after system.start
        [.setClient (some 0), .addObserver, .require location true,
          .reply 0 GRANTED])) ∧
    (system.Run system.start [.addObserver, .require location false] ∧
      ¬AllMatched (system.after system.start
        [.addObserver, .require location false])) := by
  refine ⟨⟨by decide, ?_⟩, by decide, ?_⟩
  · intro all
    obtain ⟨result, seen, _⟩ := all _ List.mem_cons_self 0 (by decide)
    cases seen
  · intro all
    obtain ⟨result, _, given⟩ := all _ List.mem_cons_self 0 (by decide)
    cases given

end QuickApp.Permission.Observers
