import HelperHandoff.Act
import HelperHandoff.Bytes

/-!
Sending one message with descriptors over a stream. The kernel may take the message whole, in
part or not at all, and a signal may come before it takes anything: then it is asked again, and
only then. The descriptors travel with the first byte.
-/

set_option autoImplicit false

namespace HelperHandoff

structure Bundle (φ : Type) where
  stdin : φ
  stdout : φ
  stderr : φ
  cwd : φ
  deriving DecidableEq, Repr

namespace Bundle

variable {φ : Type}

def files (b : Bundle φ) : List φ := [b.stdin, b.stdout, b.stderr, b.cwd]

theorem length_files (b : Bundle φ) : b.files.length = Protocol.descriptorCount := rfl

theorem files_stdin (b : Bundle φ) : b.files[Protocol.stdinSlot]? = some b.stdin := rfl
theorem files_stdout (b : Bundle φ) : b.files[Protocol.stdoutSlot]? = some b.stdout := rfl
theorem files_stderr (b : Bundle φ) : b.files[Protocol.stderrSlot]? = some b.stderr := rfl
theorem files_cwd (b : Bundle φ) : b.files[Protocol.cwdSlot]? = some b.cwd := rfl

end Bundle

structure Message (φ : Type) where
  bytes : Bytes
  files : List φ
  deriving DecidableEq, Repr

namespace Message

variable {φ : Type}

def empty : Message φ := ⟨[], []⟩

/-- The part that a kernel which took `n` bytes delivers. -/
def ofAccepted (payload : Bytes) (bundle : Bundle φ) (n : Nat) : Message φ :=
  if n = 0 then empty else ⟨payload.take n, bundle.files⟩

end Message

namespace Transport

variable {φ : Type}

structure Sending (φ : Type) where
  /-- Nothing as long as the kernel has not given its answer. -/
  result? : Option (Except HandoffError Unit)
  acts : List Act
  message : Message φ

/-- Sends a payload to a kernel with these answers; those after the first that is no
interruption are not asked for. -/
def send (payload : Bytes) (bundle : Bundle φ) : List Transmission → Sending φ
  | [] => ⟨none, [], .empty⟩
  | .interrupted :: later =>
    let s := send payload bundle later
    { s with acts := .transmit .interrupted :: s.acts }
  | .refused e :: _ => ⟨some (.error (.transport e)), [.transmit (.refused e)], .empty⟩
  | .accepted n :: _ =>
    let expected := payload.length
    let message := Message.ofAccepted payload bundle n
    if n = expected then
      ⟨some (.ok ()),
        [.transmit (.accepted n), .report (.handoffSent n Protocol.descriptorCount)], message⟩
    else ⟨some (.error (.partialSend n expected)), [.transmit (.accepted n)], message⟩

/-- What the far end of a connection does. -/
inductive Peer where
  | reads
  | closed
  | deaf
  | full
  | stuck
  deriving DecidableEq, Repr

def room : Nat := 219264

/-- The kernel's answer, without a signal. It looks at the descriptors before it looks at the
peer, and at the peer before it looks at the message; an empty message always has room. -/
def Peer.answer (peer : Peer) (allOpen : Bool) (length : Nat) : Transmission :=
  if !allOpen then .refused (.system .badDescriptor)
  else
    match peer with
    | .reads => .accepted length
    | .closed | .deaf => .refused (.system .brokenPipe)
    | .full => if length = 0 then .accepted 0 else .refused (.system .again)
    | .stuck => .accepted (min length room)

def sendTo (peer : Peer) (payload : Bytes) (bundle : Bundle (Option φ)) : Sending (Option φ) :=
  send payload bundle [peer.answer (bundle.files.all Option.isSome) payload.length]

end Transport

end HelperHandoff
