import HelperHandoff.IoError
import HelperHandoff.Phase
import HelperHandoff.Protocol
import HelperHandoff.Text.Utf8

set_option autoImplicit false

namespace HelperHandoff

inductive HandoffError where
  | setup (what : String) (source : IoError)
  | bootstrap (program : Bytes) (source : IoError)
  | connectTimeout (socket : Bytes) (attempts : Nat)
  | encode (text : String)
  | transport (source : IoError)
  | partialSend (sent expected : Nat)
  | waitTimeout (waitedMs : Nat)
  | counterLost (source : IoError)
  | counterAlloc (source : IoError)
  deriving DecidableEq, Repr

namespace HandoffError

def message : HandoffError → String
  | .setup what source => what ++ ": " ++ source.message
  | .bootstrap program source =>
    "error running kart helper " ++ program.display ++ ": " ++ source.message
  | .connectTimeout socket attempts =>
    "timeout connecting to kart helper at " ++ socket.display ++ " after " ++
      toString attempts ++ " attempts"
  | .encode text => "error encoding command for kart helper: " ++ text
  | .transport source => "error sending command to kart helper: " ++ source.message
  | .partialSend sent expected =>
    "error sending command to kart helper: sent " ++ toString sent ++ " of " ++
      toString expected ++ " bytes"
  | .waitTimeout waitedMs =>
    "timed out after " ++ toString (waitedMs / 1000) ++ "s, no response from kart helper"
  | .counterLost source => "lost result communication with kart helper: " ++ source.message
  | .counterAlloc source =>
    "error setting up result communication with helper: " ++ source.message

def source? : HandoffError → Option String
  | .setup _ source | .bootstrap _ source | .transport source | .counterLost source
  | .counterAlloc source => some source.message
  | .encode text => some text
  | .connectTimeout _ _ | .partialSend _ _ | .waitTimeout _ => none

def chain (e : HandoffError) : String :=
  match e.source? with
  | some text => e.message ++ ": " ++ text
  | none => e.message

def exitCode : HandoffError → UInt8
  | .setup _ _ => Protocol.exitSetupFailed
  | .bootstrap _ _ => Protocol.exitBootstrapFailed
  | .connectTimeout _ _ => Protocol.exitConnectTimeout
  | .encode _ | .transport _ | .partialSend _ _ => Protocol.exitSendFailed
  | .waitTimeout _ | .counterLost _ => Protocol.exitWaitTimeout
  | .counterAlloc _ => Protocol.exitCounterAllocFailed

def phase : HandoffError → Phase
  | .setup _ _ | .bootstrap _ _ | .connectTimeout _ _ => .connectFailed
  | .counterAlloc _ => .counterAllocFailed
  | .encode _ | .transport _ | .partialSend _ _ => .transportFailed
  | .waitTimeout _ | .counterLost _ => .timedOut

theorem isTerminal_phase (e : HandoffError) : e.phase.isTerminal = true := by cases e <;> rfl

end HandoffError

end HelperHandoff
