import QuickApp.Permission.Manager

/-!
# Reading the history of a session

The history of a session says which handle a request was issued for without
looking into the closures: it is the handle of the query during which the
client was called.  Along every run this agrees with what the closures
captured.
-/

namespace QuickApp.Permission

/-- The two calls that answer a handle. -/
def Call.isAnswer : Call → Bool
  | .grantPermissions _ _ => true
  | .rejectPermissions _ _ => true
  | _ => false

/-- A call of the client with the given closure. -/
def Call.asks (callback : Nat) : Call → Bool
  | .requirePermission _ _ given => given == callback
  | _ => false

def answers (calls : List Call) : List Call :=
  calls.filter Call.isAnswer

@[simp] theorem answers_append (left right : List Call) :
    answers (left ++ right) = answers left ++ answers right :=
  List.filter_append left right

@[simp] theorem answers_requirePermission (client : Client)
    (request : Request) (callback : Nat) :
    answers [.requirePermission client request callback] = [] := rfl

@[simp] theorem answers_rejectPermissions
    (featureManager : FeatureManagerHandle)
    (handle : FeaturePermissionsHandle) :
    answers [.rejectPermissions featureManager handle] =
      [.rejectPermissions featureManager handle] := rfl

section Notifications

variable (manager : PermissionManagerImpl) (request : Request) (result : Int)
  (needBlock : Bool)

@[simp] theorem answers_onPermissionRequire :
    answers (manager.onPermissionRequire request needBlock) = [] := by
  simp [answers, PermissionManagerImpl.onPermissionRequire, Call.isAnswer]

@[simp] theorem answers_onPermssionResult :
    answers (manager.onPermssionResult request result needBlock) = [] := by
  simp [answers, PermissionManagerImpl.onPermssionResult, Call.isAnswer]

theorem not_mem_onPermissionRequire (client : Client) (other : Request)
    (callback : Nat) : .requirePermission client other callback ∉
      manager.onPermissionRequire request needBlock := by
  simp [PermissionManagerImpl.onPermissionRequire]

theorem not_mem_onPermssionResult (client : Client) (other : Request)
    (callback : Nat) : .requirePermission client other callback ∉
      manager.onPermssionResult request result needBlock := by
  simp [PermissionManagerImpl.onPermssionResult]

@[simp] theorem any_asks_onPermissionRequire (callback : Nat) :
    (manager.onPermissionRequire request needBlock).any (Call.asks callback) =
      false := by
  simp [PermissionManagerImpl.onPermissionRequire, Call.asks]

@[simp] theorem any_asks_onPermssionResult (callback : Nat) :
    (manager.onPermssionResult request result needBlock).any
      (Call.asks callback) = false := by
  simp [PermissionManagerImpl.onPermssionResult, Call.asks]

end Notifications

@[simp] theorem answers_doPermissionResult (manager : PermissionManagerImpl)
    (result : Int) (handle : FeaturePermissionsHandle) :
    answers (manager.doPermissionResult result handle) =
      manager.doPermissionResult result handle := by
  simp only [PermissionManagerImpl.doPermissionResult]
  split <;> simp [answers, Call.isAnswer]

@[simp] theorem any_asks_doPermissionResult (manager : PermissionManagerImpl)
    (result : Int) (handle : FeaturePermissionsHandle) (callback : Nat) :
    (manager.doPermissionResult result handle).any (Call.asks callback) =
      false := by
  simp only [PermissionManagerImpl.doPermissionResult]
  split <;> simp [Call.asks]

@[simp] theorem answers_deliverResult (manager : PermissionManagerImpl)
    (given : ResultCallback FeaturePermissionsHandle) (result : Int) :
    answers (manager.deliverResult given result) =
      manager.doPermissionResult result given.resultCb := by
  simp [PermissionManagerImpl.deliverResult, PermissionManagerImpl.runCallback]

@[simp] theorem any_asks_deliverResult (manager : PermissionManagerImpl)
    (given : ResultCallback FeaturePermissionsHandle) (result : Int)
    (callback : Nat) :
    (manager.deliverResult given result).any (Call.asks callback) = false := by
  simp [PermissionManagerImpl.deliverResult,
    PermissionManagerImpl.runCallback, List.any_append]

/-- The handle of the query that called the client with this closure. -/
def issuedFor : List Record → Nat → Option FeaturePermissionsHandle
  | [], _ => none
  | record :: earlier, callback =>
      match record.event with
      | .query handle _ _ =>
          if record.calls.any (Call.asks callback) then some handle
          else issuedFor earlier callback
      | _ => issuedFor earlier callback

theorem respond_issues (platform : Platform) (session : Session)
    (event : Event) (callback : Nat)
    (linked : issuedFor session.history callback =
      (session.callbacks[callback]?).map ResultCallback.resultCb) :
    issuedFor (session.next platform event).history callback =
      ((session.next platform event).callbacks[callback]?).map
        ResultCallback.resultCb := by
  cases event with
  | setClient client => simpa [Session.next, Session.respond, issuedFor]
  | addObserver observer => simpa [Session.next, Session.respond, issuedFor]
  | reply given result =>
      simp only [Session.next, Session.respond, issuedFor]
      split <;> simpa using linked
  | query handle info permissionBuf =>
      simp only [Session.next, Session.respond, issuedFor]
      have outcome := featurePermissionQuery_outcome platform session.manager
        handle info permissionBuf session.callbacks.length
      generalize session.manager.featurePermissionQuery platform handle info
        permissionBuf session.callbacks.length = response at outcome
      cases outcome with
      | empty => simpa using linked
      | invalid => simpa [Call.asks] using linked
      | noClient => simpa using linked
      | asked =>
          by_cases here : callback = session.callbacks.length
          · subst here
            simp [Call.asks]
          · have other : ¬session.callbacks.length = callback :=
              fun same => here same.symm
            rcases Nat.lt_or_gt_of_ne here with below | above
            · simpa [Call.asks, other, List.getElem?_append_left below]
                using linked
            · have beyond : session.callbacks.length ≤ callback :=
                Nat.le_of_lt above
              have none : issuedFor session.history callback = none := by
                simpa [List.getElem?_eq_none beyond] using linked
              have outside : ∀ given : ResultCallback FeaturePermissionsHandle,
                  (session.callbacks ++ [given])[callback]? = Option.none := by
                intro given
                apply List.getElem?_eq_none
                rw [List.length_append, List.length_singleton]
                exact above
              rw [Option.toList_some, outside]
              simp [Call.asks, other, none]

/-- The manager keeps what `init` gave it, and the history agrees with the
closures. -/
structure Linked (packageName : List Char) (hfm : FeatureManagerHandle)
    (session : Session) : Prop where
  packageName : session.manager.packageName = packageName
  featureManager : session.manager.featureManager = hfm
  issued : ∀ callback, issuedFor session.history callback =
    (session.callbacks[callback]?).map ResultCallback.resultCb

theorem linked_start (platform : Platform) (packageName : List Char)
    (hfm : FeatureManagerHandle) :
    Linked packageName hfm (system platform packageName hfm).start :=
  ⟨rfl, rfl, fun _ => rfl⟩

theorem linked_next (platform : Platform) (packageName : List Char)
    (hfm : FeatureManagerHandle) (session : Session) (event : Event)
    (linked : Linked packageName hfm session) :
    Linked packageName hfm (session.next platform event) := by
  refine ⟨?_, ?_, fun callback =>
    respond_issues platform session event callback (linked.issued callback)⟩
  · cases event <;> exact linked.packageName
  · cases event <;> exact linked.featureManager

end QuickApp.Permission
