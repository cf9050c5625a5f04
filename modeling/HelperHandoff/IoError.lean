import HelperHandoff.Errno

set_option autoImplicit false

namespace HelperHandoff

inductive IoErrorKind where
  | notFound
  | permissionDenied
  | interrupted
  | connectionRefused
  | invalidInput
  | other
  deriving DecidableEq, Repr

def IoErrorKind.description : IoErrorKind → String
  | .notFound => "entity not found"
  | .permissionDenied => "permission denied"
  | .interrupted => "operation interrupted"
  | .connectionRefused => "connection refused"
  | .invalidInput => "invalid input parameter"
  | .other => "other error"

inductive IoError where
  | system (number : Errno)
  | bare (kind : IoErrorKind)
  | explained (kind : IoErrorKind) (text : String)
  deriving DecidableEq, Repr

namespace IoError

def message : IoError → String
  | .system e => e.description ++ " (os error " ++ toString e.code ++ ")"
  | .bare kind => kind.description
  | .explained _ text => text

def number? : IoError → Option Errno
  | .system e => some e
  | _ => none

def nulInFileName : IoError :=
  .explained .invalidInput "file name contained an unexpected NUL byte"

def nulInSocketPath : IoError :=
  .explained .invalidInput "paths must not contain interior null bytes"

def socketPathTooLong : IoError :=
  .explained .invalidInput "path must be shorter than SUN_LEN"

def nulInCommand : IoError :=
  .explained .invalidInput "nul byte found in provided data"

end IoError

end HelperHandoff
