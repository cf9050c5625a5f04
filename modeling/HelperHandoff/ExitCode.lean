import HelperHandoff.Protocol

/-!
Exit codes on their way from helper to client: the helper stores the code with an offset in a
counter, the client takes the offset off again and maps the code to an exit status byte. Codes
are 32-bit words; sums that leave their range saturate or are refused, as stated.
-/

set_option autoImplicit false

namespace HelperHandoff.ExitCode

def wordMin : Int := -2147483648
def wordMax : Int := 2147483647

def saturate (n : Int) : Int := max wordMin (min wordMax n)

/-- The value that stands for a code in the counter, or nothing if no such value is allowed:
the sum must fit a word, must not be negative and must not be the resting value. -/
def encode? (code : Int32) : Option Int32 :=
  let sum := code.toInt + Protocol.counterOffset
  if sum ≤ wordMax ∧ 0 ≤ sum ∧ sum ≠ Protocol.counterResting then some (Int32.ofInt sum) else none

def decode? (raw : Int32) : Option Int32 :=
  if raw.toInt = Protocol.counterResting then none
  else some (Int32.ofInt (raw.toInt - Protocol.counterOffset))

/-- The exit status of a client whose helper reported `code`. A negative code is a death by
signal and counts up from 128; of any other only the low eight bits stay. -/
def statusByte (code : Int32) : UInt8 :=
  let n := code.toInt
  if n < 0 then UInt8.ofNat ((saturate (128 + saturate (-n))) % 256).toNat
  else UInt8.ofNat (n % 256).toNat

end HelperHandoff.ExitCode
