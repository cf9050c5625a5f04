/-!
The agreement between a short-lived client and the long-lived helper: what switches a process
into handoff mode, where the helper listens, how it is started, the order of descriptors, the
encoding of exit codes and the exit statuses of failed handoffs.
-/

set_option autoImplicit false

namespace HelperHandoff.Protocol

/-- A process that has this variable, with any value, hands its invocation off. -/
def controlVariable : String := "KART_USE_HELPER"

def socketFileName : String := ".kart.socket"

def helperSubcommand : String := "helper"
def socketFlag : String := "--socket"

def waitVariable : String := "KART_HELPER_WAIT_SECS"

def payloadProgram : String := "kart-payload"

def pidField : String := "pid"
def environField : String := "environ"
def argvField : String := "argv"
def semidField : String := "semid"

def stdinSlot : Nat := 0
def stdoutSlot : Nat := 1
def stderrSlot : Nat := 2
def cwdSlot : Nat := 3
def descriptorCount : Nat := 4

/-- The helper stores an exit code plus this offset, so that no code it can report looks like
the resting value. -/
def counterOffset : Int := 1000
def counterResting : Int := 0

def exitSetupFailed : UInt8 := 1
def exitBootstrapFailed : UInt8 := 1
def exitConnectTimeout : UInt8 := 2
def exitSendFailed : UInt8 := 3
def exitWaitTimeout : UInt8 := 4
def exitCounterAllocFailed : UInt8 := 5

def exitExecFailed : UInt8 := 127

end HelperHandoff.Protocol
