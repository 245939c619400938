import QuickApp.Transition
import QuickApp.Buffers
import QuickApp.Strings
import QuickApp.Ownership
import QuickApp.Paths
import QuickApp.TaskQueue.Atomicity
import QuickApp.TaskQueue.Lifetime
import QuickApp.TaskQueue.Mutex
import QuickApp.TaskQueue.Progress
import QuickApp.TaskQueue.Signals
import QuickApp.TaskQueue.Teardown
import QuickApp.Permission.Answers
import QuickApp.Permission.Blocking
import QuickApp.Permission.Canonical
import QuickApp.Permission.Coverage
import QuickApp.Permission.Observers
import QuickApp.Permission.Separation
import QuickApp.TextInput.Application
import QuickApp.TextInput.Binding
import QuickApp.TextInput.Confidentiality
import QuickApp.TextInput.Context
import QuickApp.TextInput.Focus
import QuickApp.TextInput.Receivers
import QuickApp.TextInput.Reentrancy
import QuickApp.TextInput.Text
import QuickApp.Url.Navigation
import QuickApp.Url.PackageName
import QuickApp.Url.RoundTrip
import QuickApp.Shell.AppLoop
import QuickApp.Shell.Ending
import QuickApp.Shell.Handle
import QuickApp.Shell.LaunchUrl
import QuickApp.Shell.Lifecycle
import QuickApp.Shell.LoopEnding
import QuickApp.Shell.NewIntent
import QuickApp.Shell.OpenTarget
import QuickApp.Shell.PermissionLifetime
import QuickApp.Shell.Startup
import QuickApp.Shell.Teardown
import QuickApp.Shell.Visibility
import QuickApp.Shell.Wrapper
import QuickApp.Splash.IconPath
import QuickApp.Splash.Screen
