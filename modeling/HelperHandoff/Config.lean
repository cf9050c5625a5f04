import HelperHandoff.Invocation
import HelperHandoff.Path
import HelperHandoff.Text.Blank
import HelperHandoff.Text.Numeral

set_option autoImplicit false

namespace HelperHandoff

structure ConnectRetry where
  attempts : Nat
  intervalMs : Nat
  deriving DecidableEq, Repr

def ConnectRetry.default : ConnectRetry := ⟨10, 250⟩

structure Config where
  controlVar : String
  socketPath : Bytes
  helperProgram : Bytes
  connect : ConnectRetry
  waitMs : Nat
  deriving DecidableEq, Repr

namespace Config

def socketPathIn (home : Bytes) : Bytes :=
  Path.join home (Bytes.ofString Protocol.socketFileName)

def defaultWaitSecs : Nat := 3600

/-- Positive whole seconds, with blanks around them; anything else falls back to the default. -/
def waitSecsFrom (raw : Option String) : Nat :=
  match raw with
  | none => defaultWaitSecs
  | some s =>
    match Text.natural? (Nat.pow 2 64) (Text.trim s.toList) with
    | some (n + 1) => n + 1
    | _ => defaultWaitSecs

/-- The waiting time an environment asks for; a value that is not text counts as absent. -/
def waitSecsIn (env : List Bytes) : Nat :=
  waitSecsFrom ((Environment.lookup (Bytes.ofString Protocol.waitVariable) env).bind Utf8.decode?)

def home? (env : List Bytes) : Option Bytes :=
  (Environment.lookup (Bytes.ofString "HOME") env).filter (!·.isEmpty)

def ofProcess (p : ProcessView) : Except HandoffError Config :=
  match home? p.env with
  | none => .error (.setup "locate helper socket" (.explained .notFound "HOME is not set"))
  | some home =>
    match p.executable <|> p.argv.head? with
    | none => .error (.setup "resolve helper program" (.explained .notFound "argv[0] is missing"))
    | some program =>
      .ok
        { controlVar := Protocol.controlVariable
          socketPath := socketPathIn home
          helperProgram := program
          connect := .default
          waitMs := 1000 * waitSecsIn p.env }

end Config

end HelperHandoff
