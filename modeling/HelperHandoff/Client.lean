import HelperHandoff.Handoff
import HelperHandoff.PayloadProgram

/-!
The client as a program. It runs an invocation in one of two ways: it hands it off and exits with
the code it is told, or it becomes the payload. Which of them is decided by the control variable
alone; a handoff that fails never falls back to the payload.
-/

set_option autoImplicit false

namespace HelperHandoff

/-- The outside of a client: that of a handoff, with files to look at and programs to become. -/
structure Outside (σ κ φ : Type) extends World σ κ φ where
  isFile : σ → Bytes → Bool
  execFailure : Command → σ → Option IoError

namespace Client

variable {σ κ φ : Type}

inductive Ending where
  | becomes (c : Command)
  | exits (status : UInt8) (said : String)

structure Course (σ κ φ : Type) where
  /-- Nothing as long as the client has not ended. -/
  ending? : Option Ending
  acts : List Act
  handoff? : Option (Handoff.Report σ κ φ)

def complaint (text : String) : String := "kart: " ++ text ++ "\n"

def endingOf : Except HandoffError Int32 → Ending
  | .ok code => .exits (ExitCode.statusByte code) ""
  | .error e => .exits e.exitCode (complaint e.message)

def handOff (O : Outside σ κ φ) (p : ProcessView) (state : σ) (store : Counter.Store) :
    Course σ κ φ :=
  match Config.ofProcess p with
  | .error e => ⟨some (endingOf (.error e)), [], none⟩
  | .ok config =>
    let r := Handoff.runFor O.toWorld config p state store
    ⟨r.result?.map endingOf, r.acts, some r⟩

def payloadCommand (O : Outside σ κ φ) (p : ProcessView) (state : σ) : Command :=
  Command.payload (PayloadProgram.resolve (O.isFile state) p.executable) p.argv

def execute (O : Outside σ κ φ) (p : ProcessView) (state : σ) : Course σ κ φ :=
  let c := payloadCommand O p state
  let announced := Act.report (.payloadExec c.program)
  match O.execFailure c state with
  | none => ⟨some (.becomes c), [announced, .execute none], none⟩
  | some e =>
    let f : PayloadProgram.Failure := ⟨c.program, e⟩
    ⟨some (.exits Protocol.exitExecFailed (complaint f.chain)),
      [announced, .execute (some e)], none⟩

def run (O : Outside σ κ φ) (p : ProcessView) (state : σ) (store : Counter.Store) :
    Course σ κ φ :=
  if Invocation.requested p.env then handOff O p state store else execute O p state

end Client

end HelperHandoff
