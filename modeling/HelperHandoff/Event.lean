import HelperHandoff.HandoffError

set_option autoImplicit false

namespace HelperHandoff

inductive Level where
  | trace
  | debug
  | info
  deriving DecidableEq, Repr

def Level.name : Level → String
  | .trace => "TRACE"
  | .debug => "DEBUG"
  | .info => "INFO"

inductive TextPart where
  | environName
  | environValue
  | argument
  deriving DecidableEq, Repr

def TextPart.name : TextPart → String
  | .environName => "environ name"
  | .environValue => "environ value"
  | .argument => "argv"

inductive FieldValue where
  | number (n : Int)
  | text (s : String)
  deriving DecidableEq, Repr

inductive Event where
  | lossyConversion (part : TextPart)
  | helperConnected (attempt : Nat)
  | helperUnreachable (error : IoError)
  | connectRetry (attempt : Nat) (error : IoError)
  | helperSpawned (pid : Nat) (program socket : Bytes)
  | counterCreated (semid : Int)
  | counterRemoved (semid : Int)
  | counterRemoveFailed (semid : Int) (error : IoError)
  /-- The code was already there when the deadline passed. -/
  | racedDeadline (semid : Int) (code : Int)
  | handoffSent (bytes descriptors : Nat)
  | entered (phase : Phase)
  | completed (code : Int)
  | failed (error : HandoffError)
  | payloadExec (program : Bytes)
  deriving DecidableEq, Repr

namespace Event

def level : Event → Level
  | .helperSpawned _ _ _ => .info
  | .counterRemoved _ => .trace
  | _ => .debug

def name : Event → String
  | .lossyConversion _ => "lossy_conversion"
  | .helperConnected _ => "helper_connected"
  | .helperUnreachable _ => "helper_unreachable"
  | .connectRetry _ _ => "helper_connect_retry"
  | .helperSpawned _ _ _ => "helper_spawned"
  | .counterCreated _ => "counter_created"
  | .counterRemoved _ => "counter_removed"
  | .counterRemoveFailed _ _ => "counter_remove_failed"
  | .racedDeadline _ _ => "completion_raced_deadline"
  | .handoffSent _ _ => "handoff_sent"
  | .entered _ | .completed _ | .failed _ => "handoff_phase"
  | .payloadExec _ => "payload_exec"

def fields : Event → List (String × FieldValue)
  | .lossyConversion part => [("field", .text part.name)]
  | .helperConnected attempt => [("attempt", .number attempt)]
  | .helperUnreachable error => [("error", .text error.message)]
  | .connectRetry attempt error => [("attempt", .number attempt), ("error", .text error.message)]
  | .helperSpawned pid program socket =>
    [("pid", .number pid), ("program", .text program.display), ("socket", .text socket.display)]
  | .counterCreated semid | .counterRemoved semid => [("semid", .number semid)]
  | .counterRemoveFailed semid error =>
    [("semid", .number semid), ("error", .text error.message)]
  | .racedDeadline semid code => [("semid", .number semid), ("code", .number code)]
  | .handoffSent bytes descriptors =>
    [("bytes", .number bytes), ("descriptors", .number descriptors)]
  | .entered phase => [("phase", .text phase.name)]
  | .completed code => [("phase", .text Phase.done.name), ("code", .number code)]
  | .failed error => [("phase", .text error.phase.name), ("error", .text error.message)]
  | .payloadExec program => [("program", .text program.display)]

def phase? : Event → Option Phase
  | .entered phase => some phase
  | .completed _ => some .done
  | .failed error => some error.phase
  | _ => none

end Event

end HelperHandoff
