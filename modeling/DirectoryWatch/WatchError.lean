import DirectoryWatch.Ignore.Filter
import DirectoryWatch.Native.Error

/-!
# Errors of a watch

Errors of the set-up are answers to the call that starts a watch; errors of the run end the worker
and are kept by the service (`WatchError.isRuntime`).
-/

namespace DirectoryWatch

/-- Why a path cannot be watched. -/
inductive SetupFault where
  | unresolved (error : SystemError)
  | notADirectory
  | refused (error : Native.Error)
  | other (text : String)
  deriving DecidableEq, Repr

def SetupFault.message : SetupFault → String
  | unresolved error => error.message
  | notADirectory => "not a directory"
  | refused error => error.message
  | other text => text

/-- Why a configuration is refused. -/
inductive ConfigFault where
  /-- A pattern of white space only. -/
  | blankPattern (pattern : String)
  | badPatterns (fault : Ignore.BuildFault)
  | other (text : String)
  deriving DecidableEq, Repr

def ConfigFault.message : ConfigFault → String
  | blankPattern pattern => "empty ignore pattern " ++ Text.quoted pattern
  | badPatterns fault => fault.message
  | other text => text

inductive WatchError where
  | setup (path : Path) (fault : SetupFault)
  /-- The backend of that name cannot watch directories below the root. -/
  | unsupportedConfiguration (backend : String)
  | alreadyStarted
  | invalidConfiguration (fault : ConfigFault)
  | configRead (path : Path) (error : SystemError)
  | configParse (text : String)
  /-- The native layer reported an error on a live watch. -/
  | native (path : Path) (error : Native.Error)
  | handleInvalidated (path : Path)
  | rootRemoved (path : Path)
  | spawn (error : SystemError)
  | workerPanicked (text : String)
  deriving DecidableEq, Repr

namespace WatchError

def message : WatchError → String
  | setup path fault => "cannot watch " ++ path.display ++ ": " ++ fault.message
  | unsupportedConfiguration backend =>
    "recursive watching is not supported by the " ++ backend ++ " backend"
  | alreadyStarted => "watch service already started"
  | invalidConfiguration fault => "invalid configuration: " ++ fault.message
  | configRead path error =>
    "failed to read configuration " ++ path.display ++ ": " ++ error.message
  | configParse text => "failed to parse configuration: " ++ text
  | native path error => "native watch on " ++ path.display ++ " failed: " ++ error.message
  | handleInvalidated path =>
    "native watch handle for " ++ path.display ++ " was closed unexpectedly"
  | rootRemoved path => "watched root " ++ path.display ++ " was removed"
  | spawn error => "failed to spawn watch worker: " ++ error.message
  | workerPanicked text => "watch worker panicked: " ++ text

/-- The error arises after a successful start, on the worker. -/
def isRuntime : WatchError → Bool
  | native .. | handleInvalidated _ | rootRemoved _ | workerPanicked _ => true
  | _ => false

/-- The text of the error that this one passes on, if it passes one on. -/
def source? : WatchError → Option String
  | configRead _ error => some error.message
  | native _ error => some error.message
  | spawn error => some error.message
  | _ => none

end WatchError

end DirectoryWatch
