import QuickApp.Permission.Name
import QuickApp.Transition

/-!
# The permission manager

`PermissionManagerImpl` sits between the feature framework, which asks for
permissions through a callback, and a client that decides about them.  Every
request hands the client a closure; the client may call it at any later time,
so a session keeps the closures it gave out and the calls made so far.

The request path is modelled as the source has it: the callback looks for the
first permission of the query's set, `verifyAuth` validates its name, and the
result of `requirePermission` is not used.
-/

namespace QuickApp.Permission

open QuickApp.Buffers

abbrev FeatureManagerHandle := Nat
abbrev FeaturePermissionsHandle := Nat
abbrev FeaturePermissionId := Nat
abbrev Client := Nat
abbrev Observer := Nat

/-- The results of a client. -/
def UNKNOWN : Int := 0
def GRANTED : Int := 1
def DENIED : Int := 2
def TIMEOUT : Int := 3
def ERROR : Int := 4

/-- What comes from the headers and the configuration: the number of
permission bits, the name of each permission and `QAPP_PERM_NAME_LEN`. -/
structure Platform where
  permissionMax : Nat
  permissionName : FeaturePermissionId → Option CString
  permNameLen : Nat

/-- A set of permission bits. -/
abbrev FeaturePermissions := Nat

/-- `HAS_PERMISSION(permissions, index)`. -/
def hasPermission (permissions : FeaturePermissions) (index : Nat) : Bool :=
  permissions.testBit index

/-- The loop of `_feature_permission_query`: it leaves after its first hit. -/
def firstPermission (platform : Platform) (permissions : FeaturePermissions) :
    Option FeaturePermissionId :=
  (List.range platform.permissionMax).find? (hasPermission permissions)

/-- `FeaturePermissionsInfo`. -/
structure FeaturePermissionsInfo where
  permissions : FeaturePermissions
  apiName : List Char
  hasAsyncCbs : Bool

/-- The arguments every notification and every client call carries. -/
structure Request where
  packageName : List Char
  permid : FeaturePermissionId
  permission : List Char
  apiName : List Char
  deriving DecidableEq

/-- Calls out of the permission manager.  `callback` is the number of the
closure handed over. -/
inductive Call where
  | setPermissionsCallback (featureManager : FeatureManagerHandle)
  | grantPermissions (featureManager : FeatureManagerHandle)
      (handle : FeaturePermissionsHandle)
  | rejectPermissions (featureManager : FeatureManagerHandle)
      (handle : FeaturePermissionsHandle)
  | requirePermission (client : Client) (request : Request) (callback : Nat)
  | requirePermissionBlock (client : Client) (request : Request)
  | onPermissionRequire (observer : Observer) (request : Request)
      (needBlock : Bool)
  | onPermssionResult (observer : Observer) (request : Request)
      (result : Int) (needBlock : Bool)
  deriving DecidableEq

/-- The closure `requirePermission` gives to the client; `resultCb` is what
the closure of its caller captured. -/
structure ResultCallback (κ : Type) where
  request : Request
  needBlock : Bool
  resultCb : κ

/-- The fields of `PermissionManagerImpl` and of its base class. -/
structure PermissionManagerImpl where
  featureManager : FeatureManagerHandle := 0
  packageName : List Char := []
  client : Option Client := none
  observers : List Observer := []

namespace PermissionManagerImpl

variable (manager : PermissionManagerImpl)

def setClient (client : Option Client) : PermissionManagerImpl :=
  { manager with client := client }

def addObserver (observer : Observer) : PermissionManagerImpl :=
  { manager with observers := manager.observers ++ [observer] }

def onPermissionRequire (request : Request) (needBlock : Bool := false) :
    List Call :=
  manager.observers.map fun observer =>
    .onPermissionRequire observer request needBlock

def onPermssionResult (request : Request) (result : Int)
    (needBlock : Bool := false) : List Call :=
  manager.observers.map fun observer =>
    .onPermssionResult observer request result needBlock

/-- `PermissionManager::requirePermission`: the calls it makes and the closure
it gives away as number `callback`, if any. -/
def requirePermission {κ : Type} (request : Request) (needBlock : Bool)
    (resultCb : κ) (callback : Nat) :
    List Call × Option (ResultCallback κ) :=
  let notified := manager.onPermissionRequire request
  match manager.client with
  | none => (notified ++ manager.onPermssionResult request ERROR, none)
  | some client =>
      (notified ++ [.requirePermission client request callback],
        some { request, needBlock, resultCb })

/-- `PermissionManager::requirePermissionBlock`, where `decision` is what the
client's own `requirePermissionBlock` returns. -/
def requirePermissionBlock (request : Request) (decision : Int) :
    List Call × Int :=
  let notified := manager.onPermissionRequire request true
  match manager.client with
  | none => (notified ++ manager.onPermssionResult request DENIED true, DENIED)
  | some client =>
      (notified ++ .requirePermissionBlock client request ::
        manager.onPermssionResult request decision true, decision)

/-- The body of the closure given to the client. -/
def runCallback {κ : Type} (runResultCb : κ → Int → List Call)
    (callback : ResultCallback κ) (result : Int) : List Call :=
  runResultCb callback.resultCb result ++
    manager.onPermssionResult callback.request result callback.needBlock

def init (packageName : List Char) (hfm : FeatureManagerHandle) :
    PermissionManagerImpl × List Call :=
  ({ manager with packageName := packageName, featureManager := hfm },
    [.setPermissionsCallback hfm])

/-- The body of `uninit` is empty. -/
def uninit : PermissionManagerImpl × List Call :=
  (manager, [])

def doPermissionResult (result : Int) (handle : FeaturePermissionsHandle) :
    List Call :=
  if result = GRANTED then
    [.grantPermissions manager.featureManager handle]
  else
    [.rejectPermissions manager.featureManager handle]

/-- The call of `validatePermissionName` in `verifyAuth`, with the size of the
array it has. -/
def validateForAuth (platform : Platform) (permission : Option CString)
    (permissionBuf : Buffer Char) : Bool × Buffer Char :=
  validatePermissionName permission permissionBuf (platform.permNameLen - 1)

/-- `PermissionManagerImpl::verifyAuth`; `permissionBuf` is the uninitialised
local array. -/
def verifyAuth (platform : Platform) (permid : FeaturePermissionId)
    (permission : Option CString) (apiName : List Char)
    (handle : FeaturePermissionsHandle) (needBlock : Bool)
    (permissionBuf : Buffer Char) (callback : Nat) :
    List Call × Option (ResultCallback FeaturePermissionsHandle) :=
  let (ret, permissionBuf) :=
    validateForAuth platform permission permissionBuf
  if ret then
    manager.requirePermission
      { packageName := manager.packageName
        permid
        permission := stringIn platform.permNameLen nul permissionBuf
        apiName }
      needBlock handle callback
  else
    ([.rejectPermissions manager.featureManager handle], none)

/-- `PermissionManagerImpl::_feature_permission_query`. -/
def featurePermissionQuery (platform : Platform)
    (handle : FeaturePermissionsHandle) (info : FeaturePermissionsInfo)
    (permissionBuf : Buffer Char) (callback : Nat) :
    List Call × Option (ResultCallback FeaturePermissionsHandle) :=
  match firstPermission platform info.permissions with
  | none => ([], none)
  | some permid =>
      manager.verifyAuth platform permid (platform.permissionName permid)
        info.apiName handle (!info.hasAsyncCbs) permissionBuf callback

/-- The closure of `verifyAuth` inside the closure of `requirePermission`. -/
def deliverResult (callback : ResultCallback FeaturePermissionsHandle)
    (result : Int) : List Call :=
  manager.runCallback
    (fun handle result => manager.doPermissionResult result handle)
    callback result

end PermissionManagerImpl

/-- The lowest permission of a set, below the number of permission bits. -/
structure IsLowest (platform : Platform) (permissions : FeaturePermissions)
    (permid : FeaturePermissionId) : Prop where
  below : permid < platform.permissionMax
  member : hasPermission permissions permid
  lowest : ∀ other, other < permid → ¬hasPermission permissions other

theorem firstPermission_eq_some_iff (platform : Platform)
    (permissions : FeaturePermissions) (permid : FeaturePermissionId) :
    firstPermission platform permissions = some permid ↔
      IsLowest platform permissions permid := by
  rw [firstPermission, List.find?_range_eq_some]
  constructor
  · rintro ⟨member, below, lowest⟩
    exact ⟨List.mem_range.mp below, member, by simpa using lowest⟩
  · rintro ⟨below, member, lowest⟩
    exact ⟨member, List.mem_range.mpr below, by simpa using lowest⟩

theorem IsLowest.unique {platform : Platform} {permissions : FeaturePermissions}
    {first second : FeaturePermissionId}
    (left : IsLowest platform permissions first)
    (right : IsLowest platform permissions second) : first = second :=
  Option.some.inj
    (((firstPermission_eq_some_iff _ _ _).mpr left).symm.trans
      ((firstPermission_eq_some_iff _ _ _).mpr right))

/-- The request for a permission of a query, with its name spelled out. -/
structure Requests (platform : Platform) (packageName : List Char)
    (permid : FeaturePermissionId) (info : FeaturePermissionsInfo)
    (request : Request) : Prop where
  samePackage : request.packageName = packageName
  samePermid : request.permid = permid
  sameApi : request.apiName = info.apiName
  spelled : ∃ name, platform.permissionName permid = some name ∧
    Spells name.chars request.permission
  bounded : request.permission.length ≤ platform.permNameLen - 1

/-- The ways `_feature_permission_query` can end, with the calls it made and
the closure it gave to the client. -/
inductive QueryOutcome (platform : Platform) (manager : PermissionManagerImpl)
    (handle : FeaturePermissionsHandle) (info : FeaturePermissionsInfo)
    (callback : Nat) :
    List Call × Option (ResultCallback FeaturePermissionsHandle) → Prop where
  | empty (noBit : firstPermission platform info.permissions = none) :
      QueryOutcome platform manager handle info callback ([], none)
  | invalid {permid : FeaturePermissionId}
      (lowest : IsLowest platform info.permissions permid)
      (rejected : ¬Accepted (platform.permissionName permid)
        (platform.permNameLen - 1)) :
      QueryOutcome platform manager handle info callback
        ([.rejectPermissions manager.featureManager handle], none)
  | noClient {permid : FeaturePermissionId} {request : Request}
      (lowest : IsLowest platform info.permissions permid)
      (accepted : Accepted (platform.permissionName permid)
        (platform.permNameLen - 1))
      (missing : manager.client = none) :
      QueryOutcome platform manager handle info callback
        (manager.onPermissionRequire request ++
          manager.onPermssionResult request ERROR, none)
  | asked {permid : FeaturePermissionId} {request : Request} {client : Client}
      (lowest : IsLowest platform info.permissions permid)
      (accepted : Accepted (platform.permissionName permid)
        (platform.permNameLen - 1))
      (present : manager.client = some client)
      (requests : Requests platform manager.packageName permid info request) :
      QueryOutcome platform manager handle info callback
        (manager.onPermissionRequire request ++
            [.requirePermission client request callback],
          some
            { request
              needBlock := !info.hasAsyncCbs
              resultCb := handle })

private theorem stringIn_validated {platform : Platform} {name : CString}
    {canonical : List Char} (buffer : Buffer Char)
    (spells : Spells name.chars canonical)
    (fits : canonical.length ≤ platform.permNameLen - 1) :
    stringIn platform.permNameLen nul
      (copyTerminated canonical nul buffer) = canonical := by
  have long : 0 < canonical.length := by
    obtain ⟨suffix, _, rfl⟩ := spells
    have prefixLong : 0 < sysPrefix.length := by decide
    rw [List.length_append]
    omega
  exact stringIn_copyTerminated buffer (by omega)
    (spells.nulFree name.nulFree)

theorem featurePermissionQuery_outcome (platform : Platform)
    (manager : PermissionManagerImpl) (handle : FeaturePermissionsHandle)
    (info : FeaturePermissionsInfo) (permissionBuf : Buffer Char)
    (callback : Nat) :
    QueryOutcome platform manager handle info callback
      (manager.featurePermissionQuery platform handle info permissionBuf
        callback) := by
  simp only [PermissionManagerImpl.featurePermissionQuery]
  cases first : firstPermission platform info.permissions with
  | none => exact .empty first
  | some permid =>
      have lowest := (firstPermission_eq_some_iff _ _ _).mp first
      by_cases accepted : Accepted (platform.permissionName permid)
          (platform.permNameLen - 1)
      · obtain ⟨name, canonical, named, spells, fits⟩ := accepted
        have accepted : Accepted (platform.permissionName permid)
            (platform.permNameLen - 1) :=
          ⟨name, canonical, named, spells, fits⟩
        simp only [PermissionManagerImpl.verifyAuth,
          PermissionManagerImpl.validateForAuth, named,
          validatePermissionName_of_spells permissionBuf spells fits,
          stringIn_validated permissionBuf spells fits, if_true,
          PermissionManagerImpl.requirePermission]
        cases present : manager.client with
        | none => exact .noClient lowest accepted present
        | some client =>
            exact .asked lowest accepted present
              ⟨rfl, rfl, rfl, ⟨name, named, spells⟩, fits⟩
      · simp only [PermissionManagerImpl.verifyAuth,
          PermissionManagerImpl.validateForAuth,
          validatePermissionName_of_rejected permissionBuf accepted]
        exact .invalid lowest accepted

/-- What reaches an initialised permission manager. -/
inductive Event where
  | setClient (client : Option Client)
  | addObserver (observer : Observer)
  | query (handle : FeaturePermissionsHandle) (info : FeaturePermissionsInfo)
      (permissionBuf : Buffer Char)
  | reply (callback : Nat) (result : Int)

/-- An event and the calls made while it was handled. -/
structure Record where
  event : Event
  calls : List Call

/-- The manager, the closures it gave away in order, and the records so far,
newest first. -/
structure Session where
  manager : PermissionManagerImpl
  callbacks : List (ResultCallback FeaturePermissionsHandle) := []
  history : List Record := []

namespace Session

variable (session : Session)

/-- The calls made and the closure given away for one event. -/
def respond (platform : Platform) :
    Event → List Call × Option (ResultCallback FeaturePermissionsHandle)
  | .query handle info permissionBuf =>
      session.manager.featurePermissionQuery platform handle info
        permissionBuf session.callbacks.length
  | .reply callback result =>
      match session.callbacks[callback]? with
      | some given => (session.manager.deliverResult given result, none)
      | none => ([], none)
  | _ => ([], none)

/-- The manager after one event. -/
def managerAfter : Event → PermissionManagerImpl
  | .setClient client => session.manager.setClient client
  | .addObserver observer => session.manager.addObserver observer
  | _ => session.manager

def next (platform : Platform) (event : Event) : Session :=
  let (calls, given) := session.respond platform event
  { manager := session.managerAfter event
    callbacks := session.callbacks ++ given.toList
    history := { event, calls } :: session.history }

/-- A client can only call a closure it was given. -/
def Enabled : Event → Prop
  | .reply callback _ => callback < session.callbacks.length
  | _ => True

instance Enabled.decidable (session : Session) :
    ∀ event, Decidable (Session.Enabled session event)
  | .reply _ _ => inferInstanceAs (Decidable (_ < _))
  | .setClient _ => .isTrue trivial
  | .addObserver _ => .isTrue trivial
  | .query _ _ _ => .isTrue trivial

end Session

/-- The runs of a manager initialised with a package name. -/
def system (platform : Platform) (packageName : List Char)
    (hfm : FeatureManagerHandle) : System Session Event where
  start := { manager := (PermissionManagerImpl.init {} packageName hfm).1 }
  enabled := Session.Enabled
  next := fun session event => session.next platform event

instance system.decidableEnabled (platform : Platform)
    (packageName : List Char) (hfm : FeatureManagerHandle) (session : Session)
    (event : Event) :
    Decidable ((system platform packageName hfm).enabled session event) :=
  Session.Enabled.decidable session event

/-- The session a list of events ends in. -/
def sessionAfter (platform : Platform) (packageName : List Char)
    (hfm : FeatureManagerHandle) (events : List Event) : Session :=
  (system platform packageName hfm).after
    (system platform packageName hfm).start events

/-- A platform with one permission and the default name length. -/
def locationPlatform : Platform where
  permissionMax := 1
  permissionName := fun _ =>
    some ⟨"hapjs.permission.LOCATION".toList, by decide⟩
  permNameLen := 36

/-- A query for the permissions in a set. -/
def locationQuery (permissions : FeaturePermissions) : Event :=
  .query 7 { permissions, apiName := "get".toList, hasAsyncCbs := true }
    (fun _ => nul)

end QuickApp.Permission
