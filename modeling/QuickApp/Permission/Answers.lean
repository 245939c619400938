import Mathlib.Data.List.Nodup
import QuickApp.Permission.Consent

/-!
# Answers to queries

A query can end without an answer in two ways: no bit of its set is below the
number of permissions, or its name is accepted while no client is set, where
the result of `requirePermission` is dropped.  Every other query is answered
once, at once or when its closure is called.
-/

namespace QuickApp.Permission

open QuickApp.Buffers

/-- A query for a handle. -/
def Record.queries (handle : FeaturePermissionsHandle) (record : Record) :
    Bool :=
  match record.event with
  | .query asked _ _ => asked == handle
  | _ => false

/-- An answer for a handle. -/
def Call.answersTo (handle : FeaturePermissionsHandle) : Call → Bool
  | .grantPermissions _ answered => answered == handle
  | .rejectPermissions _ answered => answered == handle
  | _ => false

/-- A call that hands a closure to the client. -/
def Call.isRequest : Call → Bool
  | .requirePermission _ _ _ => true
  | _ => false

/-- A query for a handle that was neither answered nor passed on. -/
def Record.dropped (handle : FeaturePermissionsHandle) (record : Record) :
    Bool :=
  record.queries handle && !record.calls.any Call.isAnswer &&
    !record.calls.any Call.isRequest

def queryCount (handle : FeaturePermissionsHandle) (history : List Record) :
    Nat :=
  history.countP (Record.queries handle)

def answerCount (handle : FeaturePermissionsHandle) (history : List Record) :
    Nat :=
  (history.flatMap Record.calls).countP (Call.answersTo handle)

def droppedCount (handle : FeaturePermissionsHandle) (history : List Record) :
    Nat :=
  history.countP (Record.dropped handle)

/-- The closures called, newest first. -/
def replied (history : List Record) : List Nat :=
  history.filterMap fun record =>
    match record.event with
    | .reply callback _ => some callback
    | _ => none

/-- Every closure given away was called exactly once. -/
def Complete (session : Session) : Prop :=
  ∀ callback, callback < session.callbacks.length →
    (replied session.history).count callback = 1

instance Complete.decidable (session : Session) :
    Decidable (Complete session) :=
  inferInstanceAs (Decidable (∀ callback, callback < _ → _))

/-- Whether a closure answers a handle. -/
def answersFor (handle : FeaturePermissionsHandle)
    (callbacks : List (ResultCallback FeaturePermissionsHandle))
    (callback : Nat) : Bool :=
  (callbacks[callback]?).any fun given => given.resultCb == handle

/-- Closures that answer a handle. -/
def askedCount (handle : FeaturePermissionsHandle)
    (callbacks : List (ResultCallback FeaturePermissionsHandle)) : Nat :=
  callbacks.countP fun given => given.resultCb == handle

/-- A query that will be answered: it has a permission, and either its name is
rejected or there is a client to decide. -/
def Answerable (platform : Platform) (session : Session) : Event → Prop
  | .query _ info _ =>
      ∃ permid, IsLowest platform info.permissions permid ∧
        (Accepted (platform.permissionName permid)
          (platform.permNameLen - 1) → session.manager.client ≠ none)
  | _ => True

/-- Answers, open requests and dropped queries add up to the queries, where a
reply settles one request for each time it is made. -/
structure Balanced (session : Session) : Prop where
  below : ∀ callback, callback ∈ replied session.history →
    callback < session.callbacks.length
  balance : ∀ handle,
    answerCount handle session.history + askedCount handle session.callbacks +
        droppedCount handle session.history =
      queryCount handle session.history +
        (replied session.history).countP
          (answersFor handle session.callbacks)

theorem balanced_start (platform : Platform) (packageName : List Char)
    (hfm : FeatureManagerHandle) :
    Balanced (system platform packageName hfm).start where
  below := by simp [system, replied]
  balance _ := rfl

private theorem countP_answersTo (handle : FeaturePermissionsHandle)
    (calls : List Call) :
    calls.countP (Call.answersTo handle) =
      (answers calls).countP (Call.answersTo handle) := by
  rw [answers, List.countP_filter]
  apply List.countP_congr
  intro call _
  cases call <;> simp [Call.isAnswer, Call.answersTo]

section Notifications

variable (manager : PermissionManagerImpl) (request : Request) (result : Int)
  (needBlock : Bool)

@[simp] private theorem any_onPermissionRequire :
    (manager.onPermissionRequire request needBlock).any Call.isAnswer = false ∧
      (manager.onPermissionRequire request needBlock).any Call.isRequest =
        false := by
  simp [PermissionManagerImpl.onPermissionRequire, Call.isAnswer,
    Call.isRequest]

@[simp] private theorem any_onPermssionResult :
    (manager.onPermssionResult request result needBlock).any Call.isAnswer =
        false ∧
      (manager.onPermssionResult request result needBlock).any
        Call.isRequest = false := by
  simp [PermissionManagerImpl.onPermssionResult, Call.isAnswer,
    Call.isRequest]

end Notifications

private theorem countP_answersFor_append
    (handle : FeaturePermissionsHandle) {called : List Nat}
    {callbacks : List (ResultCallback FeaturePermissionsHandle)}
    (below : ∀ callback, callback ∈ called → callback < callbacks.length)
    (more : List (ResultCallback FeaturePermissionsHandle)) :
    called.countP (answersFor handle (callbacks ++ more)) =
      called.countP (answersFor handle callbacks) := by
  apply List.countP_congr
  intro callback member
  simp [answersFor, List.getElem?_append_left (below callback member)]

private theorem query_counts (platform : Platform) (session : Session)
    (asked : FeaturePermissionsHandle) (info : FeaturePermissionsInfo)
    (permissionBuf : Buffer Char) (handle : FeaturePermissionsHandle) :
    let response := session.respond platform (.query asked info permissionBuf)
    let record : Record :=
      { event := .query asked info permissionBuf, calls := response.1 }
    response.1.countP (Call.answersTo handle) +
          askedCount handle response.2.toList +
        (if record.dropped handle then 1 else 0) =
      if record.queries handle then 1 else 0 := by
  intro response record
  have outcome := featurePermissionQuery_outcome platform session.manager
    asked info permissionBuf session.callbacks.length
  have counted := countP_answersTo handle response.1
  simp only [response, record, Session.respond, Record.dropped,
    Record.queries] at counted ⊢
  rw [counted]
  generalize session.manager.featurePermissionQuery platform asked info
    permissionBuf session.callbacks.length = given at outcome
  cases outcome with
  | empty => simp [answers, askedCount]
  | invalid =>
      by_cases same : asked = handle <;>
        simp [askedCount, Call.isAnswer, Call.answersTo, same]
  | noClient => simp [askedCount]
  | asked =>
      by_cases same : asked = handle <;>
        simp [askedCount, Call.isAnswer, Call.isRequest, same]

private theorem reply_counts (platform : Platform) (session : Session)
    {callback : Nat} {result : Int}
    (isEnabled : Session.Enabled session (.reply callback result))
    (handle : FeaturePermissionsHandle) :
    (session.respond platform (.reply callback result)).1.countP
        (Call.answersTo handle) =
      if answersFor handle session.callbacks callback then 1 else 0 := by
  have given : session.callbacks[callback]? =
      some session.callbacks[callback] := List.getElem?_eq_getElem isEnabled
  rw [countP_answersTo]
  simp only [Session.respond, given, answers_deliverResult, answersFor,
    PermissionManagerImpl.doPermissionResult, Option.any_some]
  split <;> simp [Call.answersTo]

private theorem balanced_silent {session : Session} {event : Event}
    {manager : PermissionManagerImpl} (balanced : Balanced session)
    (silent : (∃ client, event = .setClient client) ∨
      ∃ observer, event = .addObserver observer) :
    Balanced
      { manager
        callbacks := session.callbacks
        history := { event, calls := [] } :: session.history } := by
  obtain ⟨below, balance⟩ := balanced
  rcases silent with ⟨client, rfl⟩ | ⟨observer, rfl⟩ <;>
    exact ⟨below, balance⟩

theorem balanced_next (platform : Platform) (session : Session)
    (event : Event) (balanced : Balanced session)
    (isEnabled : Session.Enabled session event) :
    Balanced (session.next platform event) := by
  cases event with
  | setClient client =>
      simpa [Session.next, Session.respond] using
        balanced_silent balanced (Or.inl ⟨client, rfl⟩)
  | addObserver observer =>
      simpa [Session.next, Session.respond] using
        balanced_silent balanced (Or.inr ⟨observer, rfl⟩)
  | query asked info permissionBuf =>
      obtain ⟨below, balance⟩ := balanced
      constructor
      · intro callback member
        have old := below callback member
        simp only [Session.next, List.length_append]
        omega
      · intro handle
        have counts := query_counts platform session asked info permissionBuf
          handle
        have old := balance handle
        have kept := countP_answersFor_append handle below
          (session.respond platform
            (.query asked info permissionBuf)).2.toList
        simp only [Session.next, answerCount, askedCount, droppedCount,
          queryCount, replied, List.flatMap_cons, List.countP_append,
          List.countP_cons, List.filterMap_cons] at counts old kept ⊢
        omega
  | reply callback result =>
      have noClosure : (session.respond platform
          (.reply callback result)).2 = none := by
        simp only [Session.respond]
        split <;> rfl
      obtain ⟨below, balance⟩ := balanced
      constructor
      · intro other member
        simp only [Session.next, replied, List.filterMap_cons,
          List.mem_cons] at member
        simp only [Session.next, noClosure, Option.toList_none,
          List.append_nil]
        rcases member with rfl | earlier
        · exact isEnabled
        · exact below other earlier
      · intro handle
        have counts := reply_counts platform session isEnabled handle
        have old := balance handle
        simp only [Session.next, noClosure, Option.toList_none,
          List.append_nil, answerCount, askedCount, droppedCount, queryCount,
          replied, List.flatMap_cons, List.countP_append, List.countP_cons,
          List.filterMap_cons, Record.dropped, Record.queries, Bool.false_and,
          Bool.false_eq_true, if_false] at counts old ⊢
        omega

private theorem replied_perm {session : Session} (balanced : Balanced session)
    (complete : Complete session) :
    (replied session.history).Perm
      (List.range session.callbacks.length) := by
  rw [List.perm_iff_count]
  intro callback
  by_cases given : callback < session.callbacks.length
  · rw [complete callback given]
    exact (List.count_eq_one_of_mem List.nodup_range
      (List.mem_range.mpr given)).symm
  · have notReplied : callback ∉ replied session.history :=
      fun member => given (balanced.below callback member)
    rw [List.count_eq_zero.mpr notReplied]
    exact (List.count_eq_zero.mpr (by simpa using given)).symm

private theorem countP_range_answersFor (handle : FeaturePermissionsHandle)
    (callbacks : List (ResultCallback FeaturePermissionsHandle)) :
    (List.range callbacks.length).countP (answersFor handle callbacks) =
      askedCount handle callbacks := by
  have looked : (List.range callbacks.length).map
      (fun callback => callbacks[callback]?) = callbacks.map some := by
    apply List.ext_getElem
    · simp
    · intro index _ _
      simp
  calc
    (List.range callbacks.length).countP (answersFor handle callbacks) =
        ((List.range callbacks.length).map
          (fun callback => callbacks[callback]?)).countP
            (fun found => found.any fun given => given.resultCb == handle) := by
      rw [List.countP_map]
      rfl
    _ = askedCount handle callbacks := by
      rw [looked, List.countP_map]
      rfl

/-- In a complete session only dropped queries are missing an answer. -/
theorem answers_add_dropped {session : Session} (balanced : Balanced session)
    (complete : Complete session) (handle : FeaturePermissionsHandle) :
    answerCount handle session.history + droppedCount handle session.history =
      queryCount handle session.history := by
  have settled := (replied_perm balanced complete).countP_eq
    (answersFor handle session.callbacks)
  rw [countP_range_answersFor] at settled
  have balance := balanced.balance handle
  omega

private theorem dropped_iff (platform : Platform) (session : Session)
    (event : Event) :
    (∀ handle, Record.dropped handle
        { event, calls := (session.respond platform event).1 } = false) ↔
      Answerable platform session event := by
  cases event with
  | setClient client => simp [Record.dropped, Record.queries, Answerable]
  | addObserver observer => simp [Record.dropped, Record.queries, Answerable]
  | reply callback result => simp [Record.dropped, Record.queries, Answerable]
  | query asked info permissionBuf =>
      have outcome := featurePermissionQuery_outcome platform session.manager
        asked info permissionBuf session.callbacks.length
      simp only [Record.dropped, Record.queries, Session.respond, Answerable]
      generalize session.manager.featurePermissionQuery platform asked info
        permissionBuf session.callbacks.length = given at outcome
      cases outcome with
      | empty noBit =>
          apply iff_of_false (fun kept => by simpa using kept asked)
          rintro ⟨permid, lowest, _⟩
          rw [(firstPermission_eq_some_iff _ _ _).mpr lowest] at noBit
          cases noBit
      | invalid lowest rejected =>
          apply iff_of_true (by simp [Call.isAnswer])
          exact ⟨_, lowest, fun accepted => (rejected accepted).elim⟩
      | noClient lowest accepted missing =>
          apply iff_of_false (fun kept => by simpa using kept asked)
          rintro ⟨permid, other, decided⟩
          exact decided (lowest.unique other ▸ accepted) missing
      | asked lowest accepted present requests =>
          apply iff_of_true (by simp [Call.isRequest])
          exact ⟨_, lowest, fun _ => by simp [present]⟩

/-- Nothing was dropped after a step exactly when nothing was before it and
its query is answerable. -/
private theorem droppedCount_next (platform : Platform) (session : Session)
    (event : Event) :
    (∀ handle, droppedCount handle
        (session.next platform event).history = 0) ↔
      (∀ handle, droppedCount handle session.history = 0) ∧
        Answerable platform session event := by
  rw [← dropped_iff platform session event, ← forall_and]
  apply forall_congr'
  intro handle
  rw [history_next, droppedCount, List.countP_cons]
  simp [droppedCount]

/-- Every session in which each closure is called once: for every handle the
answers are as many as the queries, if and only if every query had a
permission and either an unacceptable name or a client when it arrived. -/
theorem answered_once_iff (platform : Platform) (packageName : List Char)
    (hfm : FeatureManagerHandle) {events : List Event}
    (run : (system platform packageName hfm).Run
      (system platform packageName hfm).start events)
    (complete : Complete (sessionAfter platform packageName hfm events)) :
    (∀ handle,
      answerCount handle
          (sessionAfter platform packageName hfm events).history =
        queryCount handle
          (sessionAfter platform packageName hfm events).history) ↔
    (system platform packageName hfm).AllSteps (Answerable platform)
      (system platform packageName hfm).start events := by
  have balanced : Balanced (sessionAfter platform packageName hfm events) :=
    run.invariant (balanced_next platform)
      (balanced_start platform packageName hfm)
  have dropped := run.holds_iff
    (fun session => ∀ handle, droppedCount handle session.history = 0)
    (fun _ _ (_ : True) _ => trivial)
    (fun session event _ _ => droppedCount_next platform session event) trivial
  have startDropped : ∀ handle, droppedCount handle
      (system platform packageName hfm).start.history = 0 := fun _ => rfl
  rw [and_iff_right startDropped] at dropped
  rw [← dropped]
  apply forall_congr'
  intro handle
  have total := answers_add_dropped balanced complete handle
  change _ ↔ droppedCount handle
    (sessionAfter platform packageName hfm events).history = 0
  omega

/-- With a client set, two queries for one handle are outstanding, and the
second one is answered first. -/
theorem answered_once_with_client :
    answerCount 7 (sessionAfter locationPlatform "com.a".toList 3
        [.setClient (some 0), locationQuery 1, locationQuery 1,
          .reply 1 GRANTED, .reply 0 DENIED]).history =
      queryCount 7 (sessionAfter locationPlatform "com.a".toList 3
        [.setClient (some 0), locationQuery 1, locationQuery 1,
          .reply 1 GRANTED, .reply 0 DENIED]).history := by
  have lowest : IsLowest locationPlatform 1 0 :=
    (firstPermission_eq_some_iff _ _ _).mp (by decide)
  have answerable : (system locationPlatform "com.a".toList 3).AllSteps
      (Answerable locationPlatform)
      (system locationPlatform "com.a".toList 3).start
      [.setClient (some 0), locationQuery 1, locationQuery 1,
        .reply 1 GRANTED, .reply 0 DENIED] := by
    refine ⟨trivial, ⟨0, lowest, ?_⟩, ⟨0, lowest, ?_⟩, trivial, trivial,
      trivial⟩
    · intro _ noClient
      cases noClient
    · intro _ noClient
      cases noClient
  exact (answered_once_iff locationPlatform "com.a".toList 3 (by decide)
    (by decide)).mpr answerable 7

/-- A query with a valid name and no client, and a query without permission
bits, are never answered. -/
theorem query_never_answered :
    (Complete (sessionAfter locationPlatform "com.a".toList 3
        [locationQuery 1]) ∧
      queryCount 7 (sessionAfter locationPlatform "com.a".toList 3
        [locationQuery 1]).history = 1 ∧
      answerCount 7 (sessionAfter locationPlatform "com.a".toList 3
        [locationQuery 1]).history = 0) ∧
    (Complete (sessionAfter locationPlatform "com.a".toList 3
        [.setClient (some 0), locationQuery 0]) ∧
      queryCount 7 (sessionAfter locationPlatform "com.a".toList 3
        [.setClient (some 0), locationQuery 0]).history = 1 ∧
      answerCount 7 (sessionAfter locationPlatform "com.a".toList 3
        [.setClient (some 0), locationQuery 0]).history = 0) := by
  decide

end QuickApp.Permission
