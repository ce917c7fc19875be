import ContentWeave.Files.Error

/-!
Why a chunk store failed.  An error tells what kind of fault it is, whether trying again can help,
and, where that is known, which store, which chunk and which cause it is about.
-/

namespace ContentWeave

inductive StorageErrorKind where
  | permissionDenied
  | unavailable
  | timeout
  | invalidData
  | other
deriving DecidableEq

inductive ErrorStatus where
  | permanent
  /-- Trying again at once can help. -/
  | temporary
  /-- Trying again after a while can help. -/
  | persistent
deriving DecidableEq

inductive DeviceFault where
  | permissionDenied
  | timedOut
  | invalidData
  | interrupted
  | other
deriving DecidableEq

structure StorageError where
  kind : StorageErrorKind
  status : ErrorStatus := .permanent
  key : Option Text := none
  backend : Option Text := none
  source : Option Text := none
deriving DecidableEq

def FileError.fault : FileError → DeviceFault
  | .denied => .permissionDenied
  | .notText => .invalidData
  | _ => .other

namespace StorageErrorKind

def ofFault : DeviceFault → StorageErrorKind
  | .permissionDenied => permissionDenied
  | .timedOut => timeout
  | .invalidData => invalidData
  | .interrupted | .other => other

def label : StorageErrorKind → Text
  | permissionDenied => "Permission denied".toList
  | unavailable => "Unavailable".toList
  | timeout => "Timeout".toList
  | invalidData => "Invalid data".toList
  | other => "Error".toList

end StorageErrorKind

def ErrorStatus.ofFault : DeviceFault → ErrorStatus
  | .timedOut | .interrupted => temporary
  | _ => permanent

namespace StorageError

def ofFault (fault : DeviceFault) (message : Text) (key : Option Text) : StorageError where
  kind := .ofFault fault
  status := .ofFault fault
  key := key
  source := some message

/-- The message of an error: `[store] kind: cause (chunk: key)`, without the parts that are not
known. -/
def message (e : StorageError) : Text :=
  (match e.backend with
    | some backend => '[' :: backend ++ "] ".toList
    | none => [])
  ++ e.kind.label
  ++ (match e.source with
    | some source => ": ".toList ++ source
    | none => [])
  ++ (match e.key with
    | some key => " (chunk: ".toList ++ key ++ [')']
    | none => [])

end StorageError
end ContentWeave
