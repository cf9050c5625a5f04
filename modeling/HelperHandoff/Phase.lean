set_option autoImplicit false

namespace HelperHandoff

inductive Phase where
  | idle
  | locating
  | connected
  | counterAllocated
  | sent
  | waiting
  | done
  | connectFailed
  | counterAllocFailed
  | transportFailed
  | timedOut
  deriving DecidableEq, Repr

namespace Phase

def all : List Phase :=
  [.idle, .locating, .connected, .counterAllocated, .sent, .waiting, .done, .connectFailed,
   .counterAllocFailed, .transportFailed, .timedOut]

def isTerminal : Phase → Bool
  | .done | .connectFailed | .counterAllocFailed | .transportFailed | .timedOut => true
  | .idle | .locating | .connected | .counterAllocated | .sent | .waiting => false

def name : Phase → String
  | .idle => "idle"
  | .locating => "locating"
  | .connected => "connected"
  | .counterAllocated => "counter-allocated"
  | .sent => "sent"
  | .waiting => "waiting"
  | .done => "done"
  | .connectFailed => "connect-failed"
  | .counterAllocFailed => "counter-alloc-failed"
  | .transportFailed => "transport-failed"
  | .timedOut => "timed-out"

theorem mem_all (p : Phase) : p ∈ all := by cases p <;> decide

end Phase

end HelperHandoff
