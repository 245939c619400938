import QuickApp.Permission.Answers

/-!
# Queries for more than one permission

The loop of `_feature_permission_query` leaves after its first hit, so a client
is asked about one permission of a set, and its consent to that one answers
the whole query.  A grant covers its query exactly when the set has no other
permission.
-/

namespace QuickApp.Permission

open QuickApp.Buffers

/-- The record of the query that handed out a closure. -/
def issuingQuery : List Record → Nat → Option Record
  | [], _ => none
  | record :: earlier, callback =>
      match record.event with
      | .query _ _ _ =>
          if record.calls.any (Call.asks callback) then some record
          else issuingQuery earlier callback
      | _ => issuingQuery earlier callback

/-- A permission in the set of a query. -/
def Record.Contains (platform : Platform) (permid : FeaturePermissionId)
    (record : Record) : Prop :=
  match record.event with
  | .query _ info _ =>
      permid < platform.permissionMax ∧ hasPermission info.permissions permid
  | _ => False

/-- The client was asked for a permission, with a closure. -/
def Record.AsksFor (permid : FeaturePermissionId) (callback : Nat)
    (record : Record) : Prop :=
  ∃ client request,
    .requirePermission client request callback ∈ record.calls ∧
      request.permid = permid

/-- The client replied GRANTED with a closure. -/
def RepliedGranted (callback : Nat) (history : List Record) : Prop :=
  ∃ record ∈ history, record.event = .reply callback GRANTED

/-- A grant comes from the reply to a query for its handle, and each
permission in the set of that query was asked for and granted. -/
def Covered (platform : Platform) (record : Record) (earlier : List Record) :
    Prop :=
  ∀ featureManager handle,
    .grantPermissions featureManager handle ∈ record.calls →
      ∃ callback result query,
        record.event = .reply callback result ∧
          issuingQuery earlier callback = some query ∧
          query.queries handle ∧
          ∀ permid, query.Contains platform permid →
            ∃ asked, query.AsksFor permid asked ∧
              RepliedGranted asked (record :: earlier)

/-- A consent that is given to a query with one permission. -/
def SinglePermission (platform : Platform) (session : Session) : Event → Prop
  | .reply callback result =>
      result = GRANTED → ∀ query,
        issuingQuery session.history callback = some query →
          ∀ first second, query.Contains platform first →
            query.Contains platform second → first = second
  | _ => True

theorem Record.Contains.below {platform : Platform}
    {permid : FeaturePermissionId} {record : Record}
    (contains : record.Contains platform permid) :
    permid < platform.permissionMax := by
  rw [Record.Contains] at contains
  split at contains
  · exact contains.1
  · exact contains.elim

theorem issuingQuery_of_issuedFor {history : List Record} {callback : Nat}
    {handle : FeaturePermissionsHandle}
    (issued : issuedFor history callback = some handle) :
    ∃ query ∈ history, issuingQuery history callback = some query ∧
      (∃ info permissionBuf,
        query.event = .query handle info permissionBuf) ∧
      query.calls.any (Call.asks callback) := by
  induction history with
  | nil => cases issued
  | cons record earlier induction =>
      obtain ⟨event, calls⟩ := record
      cases event with
      | query asked info permissionBuf =>
          simp only [issuedFor, issuingQuery] at issued ⊢
          by_cases asks : calls.any (Call.asks callback)
          · rw [if_pos asks, Option.some.injEq] at issued
            subst issued
            exact ⟨_, List.mem_cons_self, by rw [if_pos asks],
              ⟨info, permissionBuf, rfl⟩, asks⟩
          · rw [if_neg asks] at issued
            obtain ⟨query, member, found⟩ := induction issued
            exact ⟨query, List.mem_cons_of_mem _ member,
              by simpa only [if_neg asks] using found⟩
      | setClient client =>
          obtain ⟨query, member, found⟩ := induction issued
          exact ⟨query, List.mem_cons_of_mem _ member, found⟩
      | addObserver observer =>
          obtain ⟨query, member, found⟩ := induction issued
          exact ⟨query, List.mem_cons_of_mem _ member, found⟩
      | reply given result =>
          obtain ⟨query, member, found⟩ := induction issued
          exact ⟨query, List.mem_cons_of_mem _ member, found⟩

theorem EachRecord.of_mem {holds : Record → List Record → Prop}
    {history : List Record} (each : EachRecord holds history)
    {record : Record} (member : record ∈ history) :
    ∃ earlier, holds record earlier := by
  induction history with
  | nil => cases member
  | cons head earlier induction =>
      cases member with
      | head => exact ⟨earlier, each.1⟩
      | tail _ member => exact induction each.2 member

private theorem asksFor_of_asks {query : Record} {callback : Nat}
    (asks : query.calls.any (Call.asks callback)) :
    ∃ permid, query.AsksFor permid callback := by
  obtain ⟨call, member, isAsking⟩ := List.any_eq_true.mp asks
  cases call with
  | requirePermission client request given =>
      have same : given = callback := by simpa [Call.asks] using isAsking
      subst same
      exact ⟨request.permid, client, request, member, rfl⟩
  | _ => simp [Call.asks] at isAsking

private theorem asksFor_lowest {platform : Platform} {packageName : List Char}
    {hfm : FeatureManagerHandle} {query : Record} {earlier : List Record}
    (consented : Consented platform packageName hfm query earlier)
    {permid : FeaturePermissionId} {callback : Nat}
    (asks : query.AsksFor permid callback) :
    ∃ handle info permissionBuf,
      query.event = .query handle info permissionBuf ∧
        IsLowest platform info.permissions permid := by
  obtain ⟨client, request, member, rfl⟩ := asks
  obtain ⟨handle, info, permissionBuf, permid, isQuery, lowest, requests⟩ :=
    consented.request client request callback member
  exact ⟨handle, info, permissionBuf, isQuery,
    requests.samePermid ▸ lowest⟩

/-- A session whose history can be looked up. -/
structure Documented (platform : Platform) (packageName : List Char)
    (hfm : FeatureManagerHandle) (session : Session) : Prop where
  linked : Linked packageName hfm session
  consented : EachRecord (Consented platform packageName hfm) session.history

theorem documented_next (platform : Platform) (packageName : List Char)
    (hfm : FeatureManagerHandle) (session : Session) (event : Event)
    (documented : Documented platform packageName hfm session)
    (isEnabled : Session.Enabled session event) :
    Documented platform packageName hfm (session.next platform event) where
  linked := linked_next platform packageName hfm session event
    documented.linked
  consented := ⟨consented_next documented.linked isEnabled,
    documented.consented⟩

private theorem covered_of_answers {platform : Platform} {record : Record}
    {earlier : List Record}
    (noGrant : ∀ featureManager handle,
      .grantPermissions featureManager handle ∉ answers record.calls) :
    Covered platform record earlier := by
  intro featureManager handle member
  have answered : .grantPermissions featureManager handle ∈
      answers record.calls := List.mem_filter.mpr ⟨member, rfl⟩
  exact (noGrant featureManager handle answered).elim

private theorem lowest_contains {platform : Platform} {query : Record}
    {handle : FeaturePermissionsHandle} {info : FeaturePermissionsInfo}
    {permissionBuf : Buffer Char} {permid : FeaturePermissionId}
    (isQuery : query.event = .query handle info permissionBuf)
    (lowest : IsLowest platform info.permissions permid) :
    query.Contains platform permid := by
  rw [Record.Contains, isQuery]
  exact ⟨lowest.below, lowest.member⟩

private theorem covered_reply_iff {platform : Platform}
    {packageName : List Char} {hfm : FeatureManagerHandle} {session : Session}
    (documented : Documented platform packageName hfm session)
    {callback : Nat}
    (isEnabled : Session.Enabled session (.reply callback GRANTED)) :
    Covered platform
        { event := .reply callback GRANTED
          calls := (session.respond platform (.reply callback GRANTED)).1 }
        session.history ↔
      SinglePermission platform session (.reply callback GRANTED) := by
  obtain ⟨handle, issued, answered⟩ :=
    respond_reply documented.linked platform isEnabled
  rw [if_pos rfl] at answered
  obtain ⟨query, member, found, ⟨info, permissionBuf, isQuery⟩, asks⟩ :=
    issuingQuery_of_issuedFor issued
  obtain ⟨_, consented⟩ := documented.consented.of_mem member
  constructor
  · intro covered _ other sameQuery
    rw [found, Option.some.injEq] at sameQuery
    subst sameQuery
    have granted : .grantPermissions hfm handle ∈
        (session.respond platform (.reply callback GRANTED)).1 := by
      have among : .grantPermissions hfm handle ∈ answers
          (session.respond platform (.reply callback GRANTED)).1 := by
        rw [answered]
        exact List.mem_cons_self
      exact (List.mem_filter.mp among).1
    obtain ⟨given, result, other, sameReply, sameQuery, _, all⟩ :=
      covered hfm handle granted
    simp only [Event.reply.injEq] at sameReply
    obtain ⟨rfl, rfl⟩ := sameReply
    rw [found, Option.some.injEq] at sameQuery
    subst sameQuery
    have isLowest : ∀ permid, query.Contains platform permid →
        IsLowest platform info.permissions permid := by
      intro permid contains
      obtain ⟨asked, asksFor, _⟩ := all permid contains
      obtain ⟨_, _, _, sameEvent, lowest⟩ := asksFor_lowest consented asksFor
      rw [isQuery, Event.query.injEq] at sameEvent
      obtain ⟨_, rfl, _⟩ := sameEvent
      exact lowest
    intro first second containsFirst containsSecond
    exact (isLowest first containsFirst).unique
      (isLowest second containsSecond)
  · intro single featureManager granted grant
    have among : .grantPermissions featureManager granted ∈ answers
        (session.respond platform (.reply callback GRANTED)).1 :=
      List.mem_filter.mpr ⟨grant, rfl⟩
    rw [answered, List.mem_singleton, Call.grantPermissions.injEq] at among
    obtain ⟨rfl, rfl⟩ := among
    refine ⟨callback, GRANTED, query, rfl, found, ?_, ?_⟩
    · simp [Record.queries, isQuery]
    · intro permid contains
      obtain ⟨lowest, asksFor⟩ := asksFor_of_asks asks
      obtain ⟨_, _, _, sameEvent, isLowest⟩ :=
        asksFor_lowest consented asksFor
      have same := single rfl query found permid lowest contains
        (lowest_contains sameEvent isLowest)
      subst same
      exact ⟨callback, asksFor, _, List.mem_cons_self, rfl⟩

theorem covered_next_iff {platform : Platform} {packageName : List Char}
    {hfm : FeatureManagerHandle} {session : Session} {event : Event}
    (documented : Documented platform packageName hfm session)
    (isEnabled : Session.Enabled session event) :
    Covered platform
        { event, calls := (session.respond platform event).1 }
        session.history ↔
      SinglePermission platform session event := by
  cases event with
  | setClient client =>
      exact iff_of_true (covered_of_answers (by simp [Session.respond, answers]))
        trivial
  | addObserver observer =>
      exact iff_of_true (covered_of_answers (by simp [Session.respond, answers]))
        trivial
  | query handle info permissionBuf =>
      refine iff_of_true (covered_of_answers ?_) trivial
      intro featureManager granted
      rcases answers_query platform session handle info permissionBuf with
        none | rejected
      · simp [none]
      · simp [rejected]
  | reply callback result =>
      by_cases granted : result = GRANTED
      · subst granted
        exact covered_reply_iff documented isEnabled
      · obtain ⟨handle, _, answered⟩ :=
          respond_reply documented.linked platform isEnabled
        refine iff_of_true (covered_of_answers ?_) fun consent => ?_
        · simp [answered, granted]
        · exact (granted consent).elim

/-- Every run: each grant covers the whole set of its query if and only if
the client consents only to queries with one permission. -/
theorem grants_covered_iff (platform : Platform) (packageName : List Char)
    (hfm : FeatureManagerHandle) {events : List Event}
    (run : (system platform packageName hfm).Run
      (system platform packageName hfm).start events) :
    EachRecord (Covered platform)
        (sessionAfter platform packageName hfm events).history ↔
      (system platform packageName hfm).AllSteps (SinglePermission platform)
        (system platform packageName hfm).start events := by
  have documented : Documented platform packageName hfm
      (system platform packageName hfm).start :=
    ⟨linked_start platform packageName hfm, trivial⟩
  have startCovered : EachRecord (Covered platform)
      (system platform packageName hfm).start.history := trivial
  have step (session : Session) (event : Event)
      (documented : Documented platform packageName hfm session)
      (isEnabled : Session.Enabled session event) :
      EachRecord (Covered platform) (session.next platform event).history ↔
        EachRecord (Covered platform) session.history ∧
          SinglePermission platform session event := by
    rw [and_comm, ← covered_next_iff documented isEnabled]
    exact Iff.rfl
  have whole := run.holds_iff
    (fun session => EachRecord (Covered platform) session.history)
    (documented_next platform packageName hfm) step documented
  rw [sessionAfter, whole]
  exact and_iff_right startCovered

/-- A platform with two permissions. -/
def pairPlatform : Platform where
  permissionMax := 2
  permissionName
    | 0 => locationPlatform.permissionName 0
    | _ => some ⟨"hapjs.permission.CAMERA".toList, by decide⟩
  permNameLen := 36

/-- A query for one of the two permissions is granted and one for both is
not. -/
theorem grants_covered_single :
    EachRecord (Covered pairPlatform)
      (sessionAfter pairPlatform "com.a".toList 3
        [.setClient (some 0), locationQuery 1, locationQuery 3,
          .reply 1 DENIED, .reply 0 GRANTED]).history := by
  apply (grants_covered_iff pairPlatform "com.a".toList 3 (by decide)).mpr
  refine ⟨trivial, trivial, trivial, ?_, ?_, trivial⟩
  · intro impossible
    cases impossible
  · intro _ query found first second containsFirst containsSecond
    have isQuery : query =
        { event := locationQuery 1
          calls := [.requirePermission 0
            ⟨"com.a".toList, 0, "vela.permission.LOCATION".toList,
              "get".toList⟩ 0] } := by
      rw [← Option.some.injEq, ← found]
      rfl
    subst isQuery
    have only : ∀ permid, permid < 2 → hasPermission 1 permid = true →
        permid = 0 := by
      decide
    rw [only first containsFirst.1 containsFirst.2,
      only second containsSecond.1 containsSecond.2]

/-- A feature that needs both permissions is granted after the client was
asked for the first one alone. -/
theorem granted_first_of_two :
    (system pairPlatform "com.a".toList 3).Run
        (system pairPlatform "com.a".toList 3).start
        [.setClient (some 0), locationQuery 3, .reply 0 GRANTED] ∧
      grants 7 (sessionAfter pairPlatform "com.a".toList 3
        [.setClient (some 0), locationQuery 3, .reply 0 GRANTED]).history =
          1 ∧
      ¬EachRecord (Covered pairPlatform)
        (sessionAfter pairPlatform "com.a".toList 3
          [.setClient (some 0), locationQuery 3,
            .reply 0 GRANTED]).history := by
  have run : (system pairPlatform "com.a".toList 3).Run
      (system pairPlatform "com.a".toList 3).start
      [.setClient (some 0), locationQuery 3, .reply 0 GRANTED] := by decide
  refine ⟨run, by decide, ?_⟩
  intro ⟨covered, _⟩
  obtain ⟨callback, result, query, isReply, found, _, all⟩ :=
    covered 3 7 (by decide)
  simp only [Event.reply.injEq] at isReply
  obtain ⟨rfl, rfl⟩ := isReply
  have isQuery : query =
      { event := locationQuery 3
        calls := [.requirePermission 0
          ⟨"com.a".toList, 0, "vela.permission.LOCATION".toList,
            "get".toList⟩ 0] } := by
    rw [← Option.some.injEq, ← found]
    rfl
  subst isQuery
  obtain ⟨asked, ⟨client, request, member, permid⟩, _⟩ :=
    all 1 ⟨by decide, by decide⟩
  rw [List.mem_singleton, Call.requirePermission.injEq] at member
  obtain ⟨_, rfl, _⟩ := member
  cases permid

end QuickApp.Permission
