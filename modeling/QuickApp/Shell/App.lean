import QuickApp.Permission.Manager
import QuickApp.Url.PackageName

/-!
# The shell of one application

`ShellApp` owns the GUI context, the application handle and the permission
manager of one quick application.  Its methods are functions from the fields
to the new fields and the calls they make.  Handles are `Option` values where
the source passes a pointer that may be null.
-/

namespace QuickApp.Shell

open QuickApp.Permission (PermissionManagerImpl FeatureManagerHandle)

abbrev QApplicationHandle := Nat
abbrev GUIWidgetContextHandle := Nat
abbrev Observer := Nat

/-- The events of the application framework. -/
inductive QAppEvent where
  | start
  | background
  | exit
  | reqExit
  | oom
  | enospc
  | prepare
  | create
  | show
  | hide
  | destroy
  | pageBackpress
  | firstPageShow
  deriving DecidableEq

/-- Calls out of the shell. -/
inductive Call where
  | guiWidgetContextCreate (packageName : List Char) (asyncMode : Bool)
  | guiWidgetContextDestroy (context : GUIWidgetContextHandle)
  | applicationCreate (uri : List Char)
      (guiContext : Option GUIWidgetContextHandle)
  | applicationGetFeatureManager (application : Option QApplicationHandle)
  | applicationStart (application : Option QApplicationHandle)
  | applicationRequestExit (application : Option QApplicationHandle)
  | applicationGetManifest (application : Option QApplicationHandle)
  | applicationGetPackagePath (application : Option QApplicationHandle)
  | onSplashScreenStart
  | onSplashScreenFinish
  | onNotifyEvent (observer : Observer) (event : QAppEvent)
  | permission (call : Permission.Call)
  | permissionManagerUninit
  | permissionManagerReset
  deriving DecidableEq

/-- What the prebuilt framework and the configuration provide. -/
structure Framework where
  guiContext : GUIWidgetContextHandle
  application : Option QApplicationHandle
  featureManager : Option QApplicationHandle → FeatureManagerHandle
  quickappPermissionManager : Bool

/-- The fields of `ShellApp`. -/
structure ShellApp where
  asyncMode : Bool
  url : List Char
  packageName : List Char
  quickApp : Option QApplicationHandle := none
  guiContext : Option GUIWidgetContextHandle := none
  permissionManager : Option PermissionManagerImpl := none
  jsTaskQueue : Bool := false
  observers : List Observer := []

namespace ShellApp

/-- The constructor.  Where `initUrl` throws there is no shell, and both strings
are left empty here. -/
def new (url : List Char) (asyncMode : Bool) : ShellApp where
  asyncMode
  url := ((Url.initUrl url).getD ([], [])).1
  packageName := ((Url.initUrl url).getD ([], [])).2

variable (app : ShellApp)

def addObserver (observer : Observer) : ShellApp :=
  { app with observers := app.observers ++ [observer] }

def initGUIContext (framework : Framework) : ShellApp × List Call :=
  ({ app with guiContext := some framework.guiContext },
    [.guiWidgetContextCreate app.packageName app.asyncMode])

def start : List Call :=
  [.applicationStart app.quickApp]

def initApplication (framework : Framework) : ShellApp × List Call :=
  let created := Call.applicationCreate app.url app.guiContext
  let app := { app with quickApp := framework.application }
  match app.permissionManager with
  | none => (app, [created])
  | some manager =>
      let (manager, calls) := manager.init app.packageName
        (framework.featureManager app.quickApp)
      ({ app with permissionManager := some manager },
        created :: .applicationGetFeatureManager app.quickApp ::
          calls.map .permission)

/-- `runApplication` up to the point where it lets `create` go on. -/
def runApplication (framework : Framework) : ShellApp × List Call :=
  let (app, calls) := initApplication { app with jsTaskQueue := true } framework
  (app, calls ++ app.start)

/-- `create`; in asynchronous mode the new thread runs `runApplication` while
the caller waits. -/
def create (framework : Framework) : ShellApp × List Call :=
  let (app, drawn) := app.initGUIContext framework
  let app :=
    if framework.quickappPermissionManager then
      { app with permissionManager := some {} }
    else
      app
  let (app, calls) :=
    if app.asyncMode then
      app.runApplication framework
    else
      let (app, calls) := app.initApplication framework
      (app, calls ++ app.start)
  (app, drawn ++ calls)

def stop : ShellApp × List Call :=
  match app.quickApp with
  | none => (app, [])
  | some application =>
      let uninit := match app.permissionManager with
        | none => []
        | some manager => .permissionManagerUninit ::
            manager.uninit.2.map .permission ++ [.permissionManagerReset]
      ({ app with permissionManager := none, quickApp := none },
        uninit ++ [.applicationRequestExit (some application)])

def onNotifyEvent (event : QAppEvent) : ShellApp × List Call :=
  let (app, calls) : ShellApp × List Call :=
    match event with
    | .prepare =>
        (app,
          [.applicationGetManifest app.quickApp,
            .applicationGetPackagePath app.quickApp, .onSplashScreenStart])
    | .destroy => ({ app with jsTaskQueue := false }, [])
    | .firstPageShow => (app, [.onSplashScreenFinish])
    | _ => (app, [])
  (app, calls ++ app.observers.map fun observer => .onNotifyEvent observer event)

def onAppDestroy : ShellApp × List Call :=
  match app.guiContext with
  | none => (app, [])
  | some context =>
      ({ app with guiContext := none }, [.guiWidgetContextDestroy context])

theorem stop_permissionManager (created : app.quickApp ≠ none) :
    app.stop.1.permissionManager = none := by
  rw [stop]
  split
  · contradiction
  · rfl

end ShellApp

end QuickApp.Shell
