import QuickApp.Permission.History

/-!
# No grant without consent

Grants are counted against the replies of the client, over whole histories.
A reply counts for the handle its request was issued for, read from the
history before the reply, so the count ties each grant to its own request
however requests and replies interleave.
-/

namespace QuickApp.Permission

open QuickApp.Buffers

/-- A call of `FeatureGrantPermissions` for a handle. -/
def Call.grantsTo (handle : FeaturePermissionsHandle) : Call → Bool
  | .grantPermissions _ granted => granted == handle
  | _ => false

/-- Calls of `FeatureGrantPermissions` for a handle. -/
def grants (handle : FeaturePermissionsHandle) : List Record → Nat
  | [] => 0
  | record :: earlier =>
      record.calls.countP (Call.grantsTo handle) + grants handle earlier

/-- Whether a record is a reply GRANTED to a request issued for a handle. -/
def grantedReply (handle : FeaturePermissionsHandle) (record : Record)
    (earlier : List Record) : Bool :=
  match record.event with
  | .reply callback result =>
      result == GRANTED && issuedFor earlier callback == some handle
  | _ => false

/-- Replies GRANTED to requests issued for a handle. -/
def grantedReplies (handle : FeaturePermissionsHandle) : List Record → Nat
  | [] => 0
  | record :: earlier =>
      (if grantedReply handle record earlier then 1 else 0) +
        grantedReplies handle earlier

/-- A property of every record and the records before it. -/
def EachRecord (holds : Record → List Record → Prop) : List Record → Prop
  | [] => True
  | record :: earlier => holds record earlier ∧ EachRecord holds earlier

/-- What the client, the framework and an invalid name may cause in one
record. -/
structure Consented (platform : Platform) (packageName : List Char)
    (hfm : FeatureManagerHandle) (record : Record) (earlier : List Record) :
    Prop where
  reply : ∀ callback result, record.event = .reply callback result →
    ∃ handle, issuedFor earlier callback = some handle ∧
      answers record.calls =
        [if result = GRANTED then .grantPermissions hfm handle
          else .rejectPermissions hfm handle]
  request : ∀ client request callback,
    .requirePermission client request callback ∈ record.calls →
      ∃ handle info permissionBuf permid,
        record.event = .query handle info permissionBuf ∧
          IsLowest platform info.permissions permid ∧
          Requests platform packageName permid info request
  invalid : ∀ handle info permissionBuf permid,
    record.event = .query handle info permissionBuf →
      IsLowest platform info.permissions permid →
      ¬Accepted (platform.permissionName permid) (platform.permNameLen - 1) →
        record.calls = [.rejectPermissions hfm handle]

private theorem countP_grantsTo_answers (handle : FeaturePermissionsHandle)
    (calls : List Call) :
    calls.countP (Call.grantsTo handle) =
      (answers calls).countP (Call.grantsTo handle) := by
  rw [answers, List.countP_filter]
  apply List.countP_congr
  intro call _
  cases call <;> simp [Call.isAnswer, Call.grantsTo]

/-- The new record of a step is the only change of the history. -/
theorem history_next (platform : Platform) (session : Session)
    (event : Event) :
    (session.next platform event).history =
      { event, calls := (session.respond platform event).1 } ::
        session.history := rfl

theorem respond_reply {packageName : List Char} {hfm : FeatureManagerHandle}
    {session : Session} (linked : Linked packageName hfm session)
    (platform : Platform) {callback : Nat} {result : Int}
    (isEnabled : Session.Enabled session (.reply callback result)) :
    ∃ handle, issuedFor session.history callback = some handle ∧
      answers (session.respond platform (.reply callback result)).1 =
        [if result = GRANTED then .grantPermissions hfm handle
          else .rejectPermissions hfm handle] := by
  have given : session.callbacks[callback]? =
      some session.callbacks[callback] := List.getElem?_eq_getElem isEnabled
  refine ⟨session.callbacks[callback].resultCb, ?_, ?_⟩
  · rw [linked.issued, given]
    rfl
  · simp only [Session.respond, given, answers_deliverResult,
      PermissionManagerImpl.doPermissionResult, linked.featureManager]
    split <;> rfl

theorem answers_query (platform : Platform) (session : Session)
    (handle : FeaturePermissionsHandle) (info : FeaturePermissionsInfo)
    (permissionBuf : Buffer Char) :
    answers (session.respond platform
        (.query handle info permissionBuf)).1 = [] ∨
      answers (session.respond platform
        (.query handle info permissionBuf)).1 =
          [.rejectPermissions session.manager.featureManager handle] := by
  simp only [Session.respond]
  have outcome := featurePermissionQuery_outcome platform session.manager
    handle info permissionBuf session.callbacks.length
  generalize session.manager.featurePermissionQuery platform handle info
    permissionBuf session.callbacks.length = response at outcome
  cases outcome with
  | empty => exact Or.inl rfl
  | invalid => exact Or.inr rfl
  | noClient => simp
  | asked => simp

private theorem not_mem_respond_reply {platform : Platform}
    {session : Session} {callback : Nat} {result : Int}
    (isEnabled : Session.Enabled session (.reply callback result))
    (client : Client) (request : Request) (given : Nat) :
    Call.requirePermission client request given ∉
      (session.respond platform (.reply callback result)).1 := by
  have found : session.callbacks[callback]? =
      some session.callbacks[callback] := List.getElem?_eq_getElem isEnabled
  simp only [Session.respond, found, PermissionManagerImpl.deliverResult,
    PermissionManagerImpl.runCallback,
    PermissionManagerImpl.doPermissionResult,
    PermissionManagerImpl.onPermssionResult]
  split <;> simp

/-- A set has one lowest permission, so an accepted one is not refused. -/
private theorem accepted_of_isLowest {platform : Platform}
    {permissions : FeaturePermissions} {first other : FeaturePermissionId}
    (lowest : IsLowest platform permissions first)
    (accepted : Accepted (platform.permissionName first)
      (platform.permNameLen - 1))
    (otherLowest : IsLowest platform permissions other) :
    Accepted (platform.permissionName other) (platform.permNameLen - 1) :=
  lowest.unique otherLowest ▸ accepted

theorem consented_next {platform : Platform} {packageName : List Char}
    {hfm : FeatureManagerHandle} {session : Session} {event : Event}
    (linked : Linked packageName hfm session)
    (isEnabled : Session.Enabled session event) :
    Consented platform packageName hfm
      { event, calls := (session.respond platform event).1 }
      session.history := by
  cases event with
  | setClient client =>
      exact ⟨by simp, by simp [Session.respond], by simp⟩
  | addObserver observer =>
      exact ⟨by simp, by simp [Session.respond], by simp⟩
  | reply callback result =>
      refine ⟨?_, ?_, by simp⟩
      · rintro _ _ ⟨rfl, rfl⟩
        exact respond_reply linked platform isEnabled
      · intro client request given member
        exact (not_mem_respond_reply isEnabled client request given
          member).elim
  | query handle info permissionBuf =>
      simp only [Session.respond]
      have outcome := featurePermissionQuery_outcome platform session.manager
        handle info permissionBuf session.callbacks.length
      generalize session.manager.featurePermissionQuery platform handle info
        permissionBuf session.callbacks.length = response at outcome
      cases outcome with
      | empty noBit =>
          refine ⟨by simp, by simp, ?_⟩
          rintro _ _ _ permid ⟨rfl, rfl, rfl⟩ lowest
          rw [(firstPermission_eq_some_iff _ _ _).mpr lowest] at noBit
          cases noBit
      | invalid lowest rejected =>
          refine ⟨by simp, by simp, ?_⟩
          rintro _ _ _ permid ⟨rfl, rfl, rfl⟩ _ _
          rw [linked.featureManager]
      | @noClient first request lowest accepted missing =>
          refine ⟨by simp, ?_, ?_⟩
          · intro client asked callback member
            rcases List.mem_append.mp member with required | reported
            · exact (not_mem_onPermissionRequire _ _ _ _ _ _ required).elim
            · exact (not_mem_onPermssionResult _ _ _ _ _ _ _ reported).elim
          · rintro _ _ _ permid ⟨rfl, rfl, rfl⟩ other rejected
            exact (rejected
              (accepted_of_isLowest lowest accepted other)).elim
      | @asked first request client lowest accepted present requests =>
          refine ⟨by simp, ?_, ?_⟩
          · intro other asked callback member
            rcases List.mem_append.mp member with required | sent
            · exact (not_mem_onPermissionRequire _ _ _ _ _ _ required).elim
            · simp only [List.mem_singleton, Call.requirePermission.injEq]
                at sent
              obtain ⟨_, rfl, _⟩ := sent
              exact ⟨handle, info, permissionBuf, first, rfl, lowest,
                linked.packageName ▸ requests⟩
          · rintro _ _ _ permid ⟨rfl, rfl, rfl⟩ other rejected
            exact (rejected
              (accepted_of_isLowest lowest accepted other)).elim

private theorem grants_next {packageName : List Char}
    {hfm : FeatureManagerHandle} {session : Session} {event : Event}
    (platform : Platform) (linked : Linked packageName hfm session)
    (isEnabled : Session.Enabled session event)
    (handle : FeaturePermissionsHandle) :
    (session.respond platform event).1.countP (Call.grantsTo handle) =
      if grantedReply handle
          { event, calls := (session.respond platform event).1 }
          session.history then 1 else 0 := by
  rw [countP_grantsTo_answers]
  cases event with
  | setClient client => rfl
  | addObserver observer => rfl
  | query other info permissionBuf =>
      rcases answers_query platform session other info permissionBuf with
        none | rejected
      · rw [none]
        rfl
      · rw [rejected]
        rfl
  | reply callback result =>
      obtain ⟨issued, found, answered⟩ :=
        respond_reply linked platform isEnabled
      rw [answered]
      by_cases granted : result = GRANTED
      · simp [granted, grantedReply, found, Call.grantsTo]
      · simp [granted, grantedReply, Call.grantsTo]

/-- Every run of an initialised permission manager: a handle is granted as
often as the client replied GRANTED to a request issued for it, every reply is
answered on the handle of its request, every request carries the package name
and the canonical name of the lowest permission of its query, and a query with
an unacceptable name is rejected at once without reaching a client. -/
theorem no_grant_without_consent (platform : Platform)
    (packageName : List Char) (hfm : FeatureManagerHandle) {session : Session}
    (reachable : (system platform packageName hfm).Reachable session) :
    (∀ handle,
      grants handle session.history =
        grantedReplies handle session.history) ∧
    EachRecord (Consented platform packageName hfm) session.history := by
  have whole : Linked packageName hfm session ∧
      (∀ handle, grants handle session.history =
        grantedReplies handle session.history) ∧
      EachRecord (Consented platform packageName hfm) session.history := by
    apply reachable.invariant
    · exact ⟨linked_start platform packageName hfm, fun _ => rfl, trivial⟩
    · rintro before event ⟨linked, counted, consented⟩ isEnabled
      refine ⟨linked_next platform packageName hfm before event linked,
        fun handle => ?_, consented_next linked isEnabled, consented⟩
      calc
        grants handle (before.next platform event).history =
            (before.respond platform event).1.countP (Call.grantsTo handle) +
              grants handle before.history := rfl
        _ = grantedReplies handle (before.next platform event).history := by
          rw [grants_next platform linked isEnabled handle, counted handle]
          rfl
  exact whole.2

/-- One query, a refusal and a late consent to the same request: one grant. -/
theorem no_grant_without_consent_once :
    grants 7 (sessionAfter locationPlatform "com.a".toList 3
      [.setClient (some 0), locationQuery 1, .reply 0 DENIED,
        .reply 0 GRANTED]).history = 1 := by
  have counted := (no_grant_without_consent locationPlatform "com.a".toList 3
    ⟨[.setClient (some 0), locationQuery 1, .reply 0 DENIED,
      .reply 0 GRANTED], by decide, rfl⟩).1 7
  rw [sessionAfter, counted]
  decide

end QuickApp.Permission
