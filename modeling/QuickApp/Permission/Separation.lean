import QuickApp.Permission.Answers

/-!
# Handles do not disturb each other

One manager serves every handle: the queries share its client and observers,
and the closures of all of them wait in one list.  A session nevertheless
treats each handle as if it were alone.  Leaving out the queries for the other
handles and the replies to their closures gives a run again, in which every
remaining event makes the same calls.

Only the number of a closure depends on the other handles, because closures
are numbered in the order of all queries.
-/

namespace QuickApp.Permission

open QuickApp.Buffers

/-- A query concerns its handle and a reply the handle its closure was issued
for; a change of the client or the observers concerns all of them. -/
def concerns (handle : FeaturePermissionsHandle) (history : List Record) :
    Event → Bool
  | .query asked _ _ => asked == handle
  | .reply callback _ => issuedFor history callback == some handle
  | _ => true

/-- How many closures were issued for a handle before the given one. -/
def rank (handle : FeaturePermissionsHandle) (history : List Record)
    (callback : Nat) : Nat :=
  (List.range callback).countP fun earlier =>
    issuedFor history earlier == some handle

/-- The event with the number its closure has if only this handle is
served. -/
def renumbered (handle : FeaturePermissionsHandle) (history : List Record) :
    Event → Event
  | .reply callback result => .reply (rank handle history callback) result
  | event => event

def ownEvent (handle : FeaturePermissionsHandle) (session : Session)
    (event : Event) : List Event :=
  if concerns handle session.history event then
    [renumbered handle session.history event]
  else
    []

/-- The events of a session that concern a handle. -/
def ownEvents (platform : Platform) (packageName : List Char)
    (hfm : FeatureManagerHandle) (handle : FeaturePermissionsHandle)
    (events : List Event) : List Event :=
  (system platform packageName hfm).relabel (ownEvent handle)
    (system platform packageName hfm).start events

/-- The records of the events that concern a handle. -/
def ownRecords (handle : FeaturePermissionsHandle) :
    List Record → List Record
  | [] => []
  | record :: earlier =>
      if concerns handle earlier record.event then
        record :: ownRecords handle earlier
      else
        ownRecords handle earlier

/-- A call without the number of the closure it hands over. -/
def Call.unnumbered : Call → Call
  | .requirePermission client request _ => .requirePermission client request 0
  | call => call

/-- The calls of a record, closures unnumbered. -/
def Record.outputs (record : Record) : List Call :=
  record.calls.map Call.unnumbered

/-- The answers for a handle, newest first. -/
def answersFrom (handle : FeaturePermissionsHandle)
    (history : List Record) : List Call :=
  (history.flatMap Record.calls).filter (Call.answersTo handle)

private theorem answersTo_unnumbered (handle : FeaturePermissionsHandle)
    (calls : List Call) :
    (calls.map Call.unnumbered).filter (Call.answersTo handle) =
      calls.filter (Call.answersTo handle) := by
  induction calls with
  | nil => rfl
  | cons call calls induction =>
      rw [List.map_cons, List.filter_cons, List.filter_cons, induction]
      cases call <;> rfl

section Numbers

variable (manager : PermissionManagerImpl) (left right : Nat)

/-- Two responses that differ in the number of a closure only. -/
private def SameResponse {κ : Type}
    (first second : List Call × Option (ResultCallback κ)) : Prop :=
  first.1.map Call.unnumbered = second.1.map Call.unnumbered ∧
    first.2 = second.2

private theorem requirePermission_sameResponse {κ : Type} (request : Request)
    (needBlock : Bool) (resultCb : κ) :
    SameResponse (manager.requirePermission request needBlock resultCb left)
      (manager.requirePermission request needBlock resultCb right) := by
  simp only [SameResponse, PermissionManagerImpl.requirePermission]
  cases manager.client with
  | none => exact ⟨rfl, rfl⟩
  | some client =>
      refine ⟨?_, rfl⟩
      simp only [List.map_append, List.map_cons, List.map_nil,
        Call.unnumbered]

private theorem featurePermissionQuery_sameResponse (platform : Platform)
    (handle : FeaturePermissionsHandle) (info : FeaturePermissionsInfo)
    (permissionBuf : Buffer Char) :
    SameResponse
      (manager.featurePermissionQuery platform handle info permissionBuf left)
      (manager.featurePermissionQuery platform handle info permissionBuf
        right) := by
  simp only [PermissionManagerImpl.featurePermissionQuery]
  cases firstPermission platform info.permissions with
  | none => exact ⟨rfl, rfl⟩
  | some permid =>
      simp only [PermissionManagerImpl.verifyAuth]
      split
      · exact requirePermission_sameResponse manager left right _ _ _
      · exact ⟨rfl, rfl⟩

end Numbers

private theorem query_own (platform : Platform) (session : Session)
    (asked handle : FeaturePermissionsHandle) (info : FeaturePermissionsInfo)
    (permissionBuf : Buffer Char) :
    let response := session.respond platform (.query asked info permissionBuf)
    (∀ given ∈ response.2, given.resultCb = asked) ∧
      (asked ≠ handle → response.1.filter (Call.answersTo handle) = []) := by
  intro response
  have outcome := featurePermissionQuery_outcome platform session.manager
    asked info permissionBuf session.callbacks.length
  simp only [response, Session.respond]
  generalize session.manager.featurePermissionQuery platform asked info
    permissionBuf session.callbacks.length = given at outcome
  constructor
  · cases outcome with
    | empty => simp
    | invalid => simp
    | noClient => simp
    | asked =>
        intro closure isGiven
        cases isGiven
        rfl
  · intro other
    cases outcome with
    | empty => rfl
    | invalid => simp [Call.answersTo, other]
    | noClient =>
        simp [PermissionManagerImpl.onPermissionRequire,
          PermissionManagerImpl.onPermssionResult, Call.answersTo]
    | asked =>
        simp [PermissionManagerImpl.onPermissionRequire, Call.answersTo]

private theorem deliverResult_own (manager : PermissionManagerImpl)
    (given : ResultCallback FeaturePermissionsHandle) (result : Int)
    {handle : FeaturePermissionsHandle} (other : given.resultCb ≠ handle) :
    (manager.deliverResult given result).filter (Call.answersTo handle) =
      [] := by
  simp only [PermissionManagerImpl.deliverResult,
    PermissionManagerImpl.runCallback, PermissionManagerImpl.doPermissionResult,
    PermissionManagerImpl.onPermssionResult, List.filter_append]
  split <;> simp [Call.answersTo, other]

/-- A session beside the one that serves a single handle. -/
structure Separate (handle : FeaturePermissionsHandle)
    (full own : Session) : Prop where
  issued : ∀ callback, issuedFor full.history callback =
    (full.callbacks[callback]?).map ResultCallback.resultCb
  manager : own.manager = full.manager
  callbacks : own.callbacks =
    full.callbacks.filter fun given => given.resultCb == handle
  outputs : own.history.map Record.outputs =
    (ownRecords handle full.history).map Record.outputs
  answered : answersFrom handle own.history = answersFrom handle full.history

private theorem getElem?_filter_rank {α : Type} (counts : α → Bool)
    (items : List α) (index : Nat) {item : α}
    (present : items[index]? = some item) (isCounted : counts item) :
    (items.filter counts)[(List.range index).countP fun earlier =>
      (items[earlier]?).any counts]? = some item := by
  induction items generalizing index with
  | nil => cases present
  | cons first items induction =>
      cases index with
      | zero =>
          rw [List.getElem?_cons_zero] at present
          cases present
          rw [List.filter_cons_of_pos isCounted]
          rfl
      | succ index =>
          rw [List.getElem?_cons_succ] at present
          have later := induction index present
          rw [List.range_succ_eq_map, List.countP_cons, List.countP_map]
          by_cases firstCounts : counts first
          · rw [List.filter_cons_of_pos firstCounts]
            simpa [Function.comp_def, firstCounts] using later
          · rw [List.filter_cons_of_neg firstCounts]
            simpa [Function.comp_def, firstCounts] using later

namespace Separate

variable {handle : FeaturePermissionsHandle} {full own : Session}

private theorem issued_eq (separate : Separate handle full own)
    (callback : Nat) :
    (issuedFor full.history callback == some handle) =
      answersFor handle full.callbacks callback := by
  rw [separate.issued, answersFor]
  cases full.callbacks[callback]? <;> rfl

private theorem closure_own (separate : Separate handle full own)
    {callback : Nat} {result : Int}
    (concerning : concerns handle full.history (.reply callback result)) :
    ∃ given, given.resultCb = handle ∧
      full.callbacks[callback]? = some given ∧
      own.callbacks[rank handle full.history callback]? = some given := by
  rw [concerns, separate.issued_eq, answersFor, Option.any_eq_true] at concerning
  obtain ⟨given, present, same⟩ := concerning
  refine ⟨given, by simpa using same, present, ?_⟩
  have ranked := getElem?_filter_rank
    (fun given : ResultCallback FeaturePermissionsHandle =>
      given.resultCb == handle) full.callbacks callback present same
  rw [separate.callbacks, rank]
  simp only [separate.issued_eq]
  exact ranked

/-- An event that concerns the handle does in both sessions the same. -/
private theorem respond_own (separate : Separate handle full own)
    (platform : Platform) {event : Event}
    (concerning : concerns handle full.history event) :
    SameResponse
        (own.respond platform (renumbered handle full.history event))
        (full.respond platform event) ∧
      ∀ given ∈ (full.respond platform event).2, given.resultCb = handle := by
  cases event with
  | setClient client => exact ⟨⟨rfl, rfl⟩, by simp [Session.respond]⟩
  | addObserver observer => exact ⟨⟨rfl, rfl⟩, by simp [Session.respond]⟩
  | query asked info permissionBuf =>
      have same : asked = handle := by simpa [concerns] using concerning
      subst same
      constructor
      · simp only [renumbered, Session.respond, separate.manager]
        exact featurePermissionQuery_sameResponse full.manager _ _ platform
          asked info permissionBuf
      · exact (query_own platform full asked asked info permissionBuf).1
  | reply callback result =>
      obtain ⟨given, _, inFull, inOwn⟩ := separate.closure_own concerning
      simp only [renumbered, Session.respond, inFull, inOwn, separate.manager]
      exact ⟨⟨rfl, rfl⟩, by simp⟩

/-- An event that does not concern the handle does nothing for it. -/
private theorem respond_other (separate : Separate handle full own)
    (platform : Platform) {event : Event}
    (unconcerned : ¬concerns handle full.history event) :
    (full.respond platform event).1.filter (Call.answersTo handle) = [] ∧
      (∀ given ∈ (full.respond platform event).2, given.resultCb ≠ handle) ∧
      full.managerAfter event = full.manager := by
  cases event with
  | setClient client => exact (unconcerned rfl).elim
  | addObserver observer => exact (unconcerned rfl).elim
  | query asked info permissionBuf =>
      have other : asked ≠ handle := by simpa [concerns] using unconcerned
      obtain ⟨given, answered⟩ :=
        query_own platform full asked handle info permissionBuf
      refine ⟨answered other, fun closure isGiven => ?_, rfl⟩
      rw [given closure isGiven]
      exact other
  | reply callback result =>
      rw [concerns, separate.issued_eq, answersFor] at unconcerned
      simp only [Session.respond]
      cases present : full.callbacks[callback]? with
      | none => exact ⟨rfl, by simp, rfl⟩
      | some given =>
          have other : given.resultCb ≠ handle := by
            simpa [present] using unconcerned
          exact ⟨deliverResult_own full.manager given result other, by simp,
            rfl⟩

private theorem answersFrom_cons (record : Record) (history : List Record) :
    answersFrom handle (record :: history) =
      record.calls.filter (Call.answersTo handle) ++
        answersFrom handle history := by
  rw [answersFrom, answersFrom, List.flatMap_cons, List.filter_append]

private theorem next_own (separate : Separate handle full own)
    (platform : Platform) {event : Event}
    (concerning : concerns handle full.history event) :
    Separate handle (full.next platform event)
      (own.next platform (renumbered handle full.history event)) := by
  obtain ⟨⟨sameCalls, sameGiven⟩, given⟩ :=
    separate.respond_own platform concerning
  constructor
  case issued =>
    intro callback
    exact respond_issues platform full event callback
      (separate.issued callback)
  case manager =>
    cases event <;>
      simp [Session.next, Session.managerAfter, renumbered, separate.manager]
  case callbacks =>
    simp only [Session.next, List.filter_append]
    rw [separate.callbacks, sameGiven]
    congr 1
    symm
    apply List.filter_eq_self.mpr
    intro closure isGiven
    rw [given closure (Option.mem_toList.mp isGiven)]
    exact beq_self_eq_true handle
  case outputs =>
    rw [history_next, history_next, ownRecords, if_pos concerning,
      List.map_cons, List.map_cons, separate.outputs]
    congr 1
  case answered =>
    rw [history_next, history_next, answersFrom_cons, answersFrom_cons,
      separate.answered]
    congr 1
    rw [← answersTo_unnumbered, sameCalls, answersTo_unnumbered]

private theorem next_other (separate : Separate handle full own)
    (platform : Platform) {event : Event}
    (unconcerned : ¬concerns handle full.history event) :
    Separate handle (full.next platform event) own := by
  obtain ⟨noAnswer, given, sameManager⟩ :=
    separate.respond_other platform unconcerned
  constructor
  case issued =>
    intro callback
    exact respond_issues platform full event callback
      (separate.issued callback)
  case manager =>
    rw [separate.manager]
    exact sameManager.symm
  case callbacks =>
    have noOwn : (full.respond platform event).2.toList.filter
        (fun closure => closure.resultCb == handle) = [] := by
      apply List.filter_eq_nil_iff.mpr
      intro closure isGiven same
      exact given closure (Option.mem_toList.mp isGiven)
        (eq_of_beq same)
    simp only [Session.next, List.filter_append]
    rw [noOwn, List.append_nil]
    exact separate.callbacks
  case outputs =>
    rw [history_next, ownRecords, if_neg unconcerned]
    exact separate.outputs
  case answered =>
    rw [history_next, answersFrom_cons, noAnswer]
    exact separate.answered

private theorem enabled_own (separate : Separate handle full own)
    {event : Event} (concerning : concerns handle full.history event) :
    Session.Enabled own (renumbered handle full.history event) := by
  cases event with
  | reply callback result =>
      obtain ⟨given, _, _, inOwn⟩ := separate.closure_own concerning
      exact (List.getElem?_eq_some_iff.mp inOwn).1
  | setClient client => trivial
  | addObserver observer => trivial
  | query asked info permissionBuf => trivial

end Separate

/-- A session is simulated by the one that serves a single handle. -/
def separation (platform : Platform) (packageName : List Char)
    (hfm : FeatureManagerHandle) (handle : FeaturePermissionsHandle) :
    Simulation (system platform packageName hfm)
      (system platform packageName hfm) where
  related := Separate handle
  labels := ownEvent handle
  start_related := ⟨fun _ => rfl, rfl, rfl, rfl, rfl⟩
  step_run := by
    intro full own event separate _
    rw [ownEvent]
    by_cases concerning : concerns handle full.history event
    · rw [if_pos concerning]
      exact ⟨separate.enabled_own concerning, trivial⟩
    · rw [if_neg concerning]
      trivial
  step_related := by
    intro full own event separate _
    rw [ownEvent]
    by_cases concerning : concerns handle full.history event
    · rw [if_pos concerning]
      exact separate.next_own platform concerning
    · rw [if_neg concerning]
      exact separate.next_other platform concerning

/-- Every session serves each handle as if it were alone: what concerns the
handle is a run by itself, each of its events makes the same calls there, and
the handle gets the same answers. -/
theorem handle_separate (platform : Platform) (packageName : List Char)
    (hfm : FeatureManagerHandle) {events : List Event}
    (run : (system platform packageName hfm).Run
      (system platform packageName hfm).start events)
    (handle : FeaturePermissionsHandle) :
    let own := ownEvents platform packageName hfm handle events
    let session := sessionAfter platform packageName hfm events
    let alone := sessionAfter platform packageName hfm own
    (system platform packageName hfm).Run
        (system platform packageName hfm).start own ∧
      alone.history.map Record.outputs =
        (ownRecords handle session.history).map Record.outputs ∧
      answersFrom handle alone.history =
        answersFrom handle session.history := by
  obtain ⟨ownRun, separate⟩ :=
    (separation platform packageName hfm handle).run_related run
  exact ⟨ownRun, separate.outputs, separate.answered⟩

/-- A query for a handle. -/
def queryFor (handle : FeaturePermissionsHandle) : Event :=
  .query handle
    { permissions := 1, apiName := "get".toList, hasAsyncCbs := true }
    (fun _ => nul)

/-- Two handles in turn: alone, the second closure is the first one. -/
theorem handle_separate_interleaved :
    ownEvents locationPlatform "com.a".toList 3 7
        [.setClient (some 0), queryFor 9, queryFor 7, .reply 0 GRANTED,
          .reply 1 DENIED] =
      [.setClient (some 0), queryFor 7, .reply 0 DENIED] ∧
    answersFrom 7 (sessionAfter locationPlatform "com.a".toList 3
        [.setClient (some 0), queryFor 7, .reply 0 DENIED]).history =
      answersFrom 7 (sessionAfter locationPlatform "com.a".toList 3
        [.setClient (some 0), queryFor 9, queryFor 7, .reply 0 GRANTED,
          .reply 1 DENIED]).history := by
  have projected : ownEvents locationPlatform "com.a".toList 3 7
      [.setClient (some 0), queryFor 9, queryFor 7, .reply 0 GRANTED,
        .reply 1 DENIED] =
      [.setClient (some 0), queryFor 7, .reply 0 DENIED] := rfl
  refine ⟨projected, ?_⟩
  rw [← projected]
  exact (handle_separate locationPlatform "com.a".toList 3 (by decide) 7).2.2

end QuickApp.Permission
