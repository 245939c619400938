import QuickApp.Permission.History

/-!
# Decisions before the query returns

A query without asynchronous callbacks sets `need_block`, and the base class
has `requirePermissionBlock` for it.  `verifyAuth` hands `need_block` to
`requirePermission`, which only reports it to the observers: the client is
asked through the entry point with a closure, and the query is decided at its
return only if the client calls the closure at once.
-/

namespace QuickApp.Permission

open QuickApp.Buffers

/-- What a client does inside its two entry points: the results it hands to
the closure before `requirePermission` returns, and the decision that
`requirePermissionBlock` returns. -/
structure ClientAnswers where
  requirePermission : Request → List Int
  requirePermissionBlock : Request → Int

/-- The calls made when `_feature_permission_query` returns.  Asking the
client is its last step, so the closure runs after all other calls. -/
def callsAtReturn (platform : Platform) (manager : PermissionManagerImpl)
    (client : ClientAnswers) (handle : FeaturePermissionsHandle)
    (info : FeaturePermissionsInfo) (permissionBuf : Buffer Char)
    (callback : Nat) : List Call :=
  let (calls, given) := manager.featurePermissionQuery platform handle info
    permissionBuf callback
  calls ++ given.toList.flatMap fun given =>
    (client.requirePermission given.request).flatMap fun result =>
      manager.deliverResult given result

/-- The request of a query, if its name is accepted. -/
def IsRequest (platform : Platform) (manager : PermissionManagerImpl)
    (info : FeaturePermissionsInfo) (request : Request) : Prop :=
  ∃ permid, IsLowest platform info.permissions permid ∧
    Requests platform manager.packageName permid info request

/-- The client decides GRANTED for the request of a query. -/
def DecidesGranted (platform : Platform) (manager : PermissionManagerImpl)
    (client : ClientAnswers) (info : FeaturePermissionsInfo) : Prop :=
  manager.client ≠ none ∧ ∃ request,
    IsRequest platform manager info request ∧
      client.requirePermissionBlock request = GRANTED

/-- Among the calls is an answer, and every answer is a grant exactly when the
client decides GRANTED. -/
structure Decided (platform : Platform) (manager : PermissionManagerImpl)
    (client : ClientAnswers) (handle : FeaturePermissionsHandle)
    (info : FeaturePermissionsInfo) (calls : List Call) : Prop where
  answered : .grantPermissions manager.featureManager handle ∈ calls ∨
    .rejectPermissions manager.featureManager handle ∈ calls
  granted : .grantPermissions manager.featureManager handle ∈ calls →
    DecidesGranted platform manager client info
  rejected : .rejectPermissions manager.featureManager handle ∈ calls →
    ¬DecidesGranted platform manager client info

/-- The query has a permission, and either its name is rejected or there is a
client that hands its decision to the closure at once. -/
def AnsweredAtOnce (platform : Platform) (manager : PermissionManagerImpl)
    (client : ClientAnswers) (info : FeaturePermissionsInfo) : Prop :=
  ∃ permid, IsLowest platform info.permissions permid ∧
    ∀ request, Requests platform manager.packageName permid info request →
      manager.client ≠ none ∧ client.requirePermission request ≠ [] ∧
        ∀ result ∈ client.requirePermission request,
          result = GRANTED ↔ client.requirePermissionBlock request = GRANTED

theorem Spells.unique {name first second : List Char}
    (left : Spells name first) (right : Spells name second) :
    first = second :=
  Option.some.inj (((canonicalName_eq_some_iff _ _).mpr left).symm.trans
    ((canonicalName_eq_some_iff _ _).mpr right))

theorem Requests.unique {platform : Platform} {packageName : List Char}
    {permid : FeaturePermissionId} {info : FeaturePermissionsInfo}
    {first second : Request}
    (left : Requests platform packageName permid info first)
    (right : Requests platform packageName permid info second) :
    first = second := by
  obtain ⟨name, named, spells⟩ := left.spelled
  obtain ⟨other, otherNamed, otherSpells⟩ := right.spelled
  rw [named, Option.some.injEq] at otherNamed
  subst otherNamed
  have samePackage := left.samePackage.trans right.samePackage.symm
  have samePermid := left.samePermid.trans right.samePermid.symm
  have sameApi := left.sameApi.trans right.sameApi.symm
  have samePermission := spells.unique otherSpells
  cases first
  cases second
  simp_all

theorem Requests.accepted {platform : Platform} {packageName : List Char}
    {permid : FeaturePermissionId} {info : FeaturePermissionsInfo}
    {request : Request}
    (requests : Requests platform packageName permid info request) :
    Accepted (platform.permissionName permid) (platform.permNameLen - 1) := by
  obtain ⟨name, named, spells⟩ := requests.spelled
  exact ⟨name, request.permission, named, spells, requests.bounded⟩

theorem requests_of_accepted {platform : Platform}
    {permid : FeaturePermissionId} (packageName : List Char)
    (info : FeaturePermissionsInfo)
    (accepted : Accepted (platform.permissionName permid)
      (platform.permNameLen - 1)) :
    ∃ request, Requests platform packageName permid info request := by
  obtain ⟨name, canonical, named, spells, fits⟩ := accepted
  exact ⟨⟨packageName, permid, canonical, info.apiName⟩, rfl, rfl, rfl,
    ⟨name, named, spells⟩, fits⟩

theorem IsRequest.unique {platform : Platform}
    {manager : PermissionManagerImpl} {info : FeaturePermissionsInfo}
    {first second : Request}
    (left : IsRequest platform manager info first)
    (right : IsRequest platform manager info second) : first = second := by
  obtain ⟨permid, lowest, requests⟩ := left
  obtain ⟨other, otherLowest, otherRequests⟩ := right
  have same := lowest.unique otherLowest
  subst same
  exact requests.unique otherRequests

theorem decidesGranted_iff {platform : Platform}
    {manager : PermissionManagerImpl} {client : ClientAnswers}
    {info : FeaturePermissionsInfo} {request : Request}
    (present : manager.client ≠ none)
    (isRequest : IsRequest platform manager info request) :
    DecidesGranted platform manager client info ↔
      client.requirePermissionBlock request = GRANTED := by
  constructor
  · intro ⟨_, other, otherRequest, decided⟩
    rw [isRequest.unique otherRequest]
    exact decided
  · intro decided
    exact ⟨present, request, isRequest, decided⟩

theorem answeredAtOnce_iff {platform : Platform}
    {manager : PermissionManagerImpl} {client : ClientAnswers}
    {info : FeaturePermissionsInfo} {permid : FeaturePermissionId}
    {request : Request} (present : manager.client ≠ none)
    (lowest : IsLowest platform info.permissions permid)
    (requests : Requests platform manager.packageName permid info request) :
    AnsweredAtOnce platform manager client info ↔
      client.requirePermission request ≠ [] ∧
        ∀ result ∈ client.requirePermission request,
          result = GRANTED ↔
            client.requirePermissionBlock request = GRANTED := by
  constructor
  · intro ⟨other, otherLowest, asks⟩
    have same := lowest.unique otherLowest
    subst same
    exact (asks request requests).2
  · intro atOnce
    refine ⟨permid, lowest, fun other otherRequests => ?_⟩
    rw [← requests.unique otherRequests]
    exact ⟨present, atOnce⟩

private theorem mem_iff_mem_answers {call : Call} (isAnswer : call.isAnswer)
    (calls : List Call) : call ∈ calls ↔ call ∈ answers calls := by
  rw [answers, List.mem_filter]
  exact (and_iff_left isAnswer).symm

private theorem not_mem_of_answers (call : Call) (isAnswer : call.isAnswer)
    {calls : List Call} (none : answers calls = []) : call ∉ calls := by
  rw [mem_iff_mem_answers isAnswer, none]
  exact List.not_mem_nil

/-- The answers of the results handed to one closure. -/
private theorem answers_deliverResults (manager : PermissionManagerImpl)
    (given : ResultCallback FeaturePermissionsHandle) (results : List Int) :
    answers (results.flatMap (manager.deliverResult given)) =
      results.flatMap fun result =>
        manager.doPermissionResult result given.resultCb := by
  induction results with
  | nil => rfl
  | cons result results induction =>
      rw [List.flatMap_cons, answers_append, answers_deliverResult, induction,
        List.flatMap_cons]

private theorem grant_mem_deliverResults_iff (manager : PermissionManagerImpl)
    (given : ResultCallback FeaturePermissionsHandle) (results : List Int) :
    .grantPermissions manager.featureManager given.resultCb ∈
        results.flatMap (manager.deliverResult given) ↔
      ∃ result ∈ results, result = GRANTED := by
  rw [mem_iff_mem_answers rfl, answers_deliverResults, List.mem_flatMap]
  apply exists_congr
  intro result
  by_cases granted : result = GRANTED <;>
    simp [PermissionManagerImpl.doPermissionResult, granted]

private theorem reject_mem_deliverResults_iff (manager : PermissionManagerImpl)
    (given : ResultCallback FeaturePermissionsHandle) (results : List Int) :
    .rejectPermissions manager.featureManager given.resultCb ∈
        results.flatMap (manager.deliverResult given) ↔
      ∃ result ∈ results, result ≠ GRANTED := by
  rw [mem_iff_mem_answers rfl, answers_deliverResults, List.mem_flatMap]
  apply exists_congr
  intro result
  by_cases granted : result = GRANTED <;>
    simp [PermissionManagerImpl.doPermissionResult, granted]

/-- Some result decides the query, and none contradicts the decision. -/
private theorem results_agree_iff (results : List Int) (decides : Prop) :
    (((∃ result ∈ results, result = GRANTED) ∨
          ∃ result ∈ results, result ≠ GRANTED) ∧
        ((∃ result ∈ results, result = GRANTED) → decides) ∧
        ((∃ result ∈ results, result ≠ GRANTED) → ¬decides)) ↔
      results ≠ [] ∧ ∀ result ∈ results, result = GRANTED ↔ decides := by
  constructor
  · intro ⟨decided, granted, rejected⟩
    constructor
    · rintro rfl
      simp at decided
    · intro result member
      constructor
      · intro isGranted
        exact granted ⟨result, member, isGranted⟩
      · intro isDecided
        by_contra notGranted
        exact rejected ⟨result, member, notGranted⟩ isDecided
  · intro ⟨nonempty, agree⟩
    refine ⟨?_, ?_, ?_⟩
    · obtain ⟨result, member⟩ := List.exists_mem_of_ne_nil results nonempty
      by_cases granted : result = GRANTED
      · exact Or.inl ⟨result, member, granted⟩
      · exact Or.inr ⟨result, member, granted⟩
    · intro ⟨result, member, granted⟩
      exact (agree result member).mp granted
    · intro ⟨result, member, notGranted⟩ isDecided
      exact notGranted ((agree result member).mpr isDecided)

theorem decided_iff_fields {platform : Platform}
    {manager : PermissionManagerImpl} {client : ClientAnswers}
    {handle : FeaturePermissionsHandle} {info : FeaturePermissionsInfo}
    {calls : List Call} :
    Decided platform manager client handle info calls ↔
      (.grantPermissions manager.featureManager handle ∈ calls ∨
          .rejectPermissions manager.featureManager handle ∈ calls) ∧
        (.grantPermissions manager.featureManager handle ∈ calls →
          DecidesGranted platform manager client info) ∧
        (.rejectPermissions manager.featureManager handle ∈ calls →
          ¬DecidesGranted platform manager client info) :=
  ⟨fun decided => ⟨decided.answered, decided.granted, decided.rejected⟩,
    fun ⟨answered, granted, rejected⟩ => ⟨answered, granted, rejected⟩⟩

/-- Every query, also one that needs a synchronous answer: it is decided at
its return, and by the decision of the client, if and only if its name is
rejected or the client calls the closure at once. -/
theorem featurePermissionQuery_decided_iff (platform : Platform)
    (manager : PermissionManagerImpl) (client : ClientAnswers)
    (handle : FeaturePermissionsHandle) (info : FeaturePermissionsInfo)
    (permissionBuf : Buffer Char) (callback : Nat) :
    Decided platform manager client handle info
        (callsAtReturn platform manager client handle info permissionBuf
          callback) ↔
      AnsweredAtOnce platform manager client info := by
  have outcome := featurePermissionQuery_outcome platform manager handle info
    permissionBuf callback
  simp only [callsAtReturn]
  generalize manager.featurePermissionQuery platform handle info permissionBuf
    callback = response at outcome
  cases outcome with
  | empty noBit =>
      apply iff_of_false
      · intro decided
        simpa using decided.answered
      · intro ⟨permid, lowest, _⟩
        rw [(firstPermission_eq_some_iff _ _ _).mpr lowest] at noBit
        cases noBit
  | @invalid permid lowest rejected =>
      have noRequest (request : Request) :
          ¬IsRequest platform manager info request := by
        intro ⟨other, otherLowest, requests⟩
        have same := lowest.unique otherLowest
        subst same
        exact rejected requests.accepted
      apply iff_of_true
      · constructor
        · simp
        · simp
        · rintro _ ⟨_, request, isRequest, _⟩
          exact noRequest request isRequest
      · refine ⟨permid, lowest, fun request requests => ?_⟩
        exact (noRequest request ⟨permid, lowest, requests⟩).elim
  | @noClient permid asked lowest accepted missing =>
      apply iff_of_false
      · intro decided
        cases decided.answered with
        | inl granted => exact not_mem_of_answers _ rfl (by simp) granted
        | inr rejected => exact not_mem_of_answers _ rfl (by simp) rejected
      · intro ⟨other, otherLowest, asks⟩
        have same := lowest.unique otherLowest
        subst same
        obtain ⟨request, requests⟩ :=
          requests_of_accepted manager.packageName info accepted
        exact (asks request requests).1 missing
  | @asked permid request asked lowest accepted present requests =>
      have isPresent : manager.client ≠ none := by simp [present]
      have isRequest : IsRequest platform manager info request :=
        ⟨permid, lowest, requests⟩
      have asking : answers (manager.onPermissionRequire request ++
          [.requirePermission asked request callback]) = [] := by simp
      have noGrant := not_mem_of_answers
        (.grantPermissions manager.featureManager handle) rfl asking
      have noReject := not_mem_of_answers
        (.rejectPermissions manager.featureManager handle) rfl asking
      let given : ResultCallback FeaturePermissionsHandle :=
        { request, needBlock := !info.hasAsyncCbs, resultCb := handle }
      have granted := grant_mem_deliverResults_iff manager given
        (client.requirePermission request)
      have rejected := reject_mem_deliverResults_iff manager given
        (client.requirePermission request)
      rw [decided_iff_fields, answeredAtOnce_iff isPresent lowest requests,
        decidesGranted_iff isPresent isRequest, ← results_agree_iff,
        ← granted, ← rejected]
      simp only [List.mem_append (t := List.flatMap _ _), noGrant, noReject,
        false_or, Option.toList_some, List.flatMap_singleton, given]

/-- A client that keeps the closure and would decide GRANTED directly: the
query returns while the client holds the closure, and nothing is answered. -/
theorem synchronous_query_undecided :
    let manager : PermissionManagerImpl :=
      { packageName := "com.a".toList, client := some 0 }
    let info : FeaturePermissionsInfo :=
      { permissions := 1, apiName := "get".toList, hasAsyncCbs := false }
    let client : ClientAnswers :=
      { requirePermission := fun _ => []
        requirePermissionBlock := fun _ => GRANTED }
    callsAtReturn locationPlatform manager client 7 info (fun _ => nul) 0 =
        [.requirePermission 0
          ⟨"com.a".toList, 0, "vela.permission.LOCATION".toList,
            "get".toList⟩ 0] ∧
      ¬Decided locationPlatform manager client 7 info
        (callsAtReturn locationPlatform manager client 7 info (fun _ => nul)
          0) := by
  intro manager info client
  have calls : callsAtReturn locationPlatform manager client 7 info
      (fun _ => nul) 0 =
      [.requirePermission 0
        ⟨"com.a".toList, 0, "vela.permission.LOCATION".toList,
          "get".toList⟩ 0] := by decide
  refine ⟨calls, fun decided => ?_⟩
  rw [calls] at decided
  simpa using decided.answered

end QuickApp.Permission
