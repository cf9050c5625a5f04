import HelperHandoff.Config
import HelperHandoff.Environment
import HelperHandoff.SortedMap

set_option autoImplicit false

namespace HelperHandoff

/-- The environment of a started program. -/
inductive CommandEnv where
  | inherited
  | only (vars : SortedMap Bytes Bytes)

structure Command where
  program : Bytes
  arg0 : Bytes
  args : List Bytes
  env : CommandEnv
  detached : Bool

namespace Command

def argv (c : Command) : List Bytes := c.arg0 :: c.args

def vars (c : Command) : List (Bytes × Bytes) :=
  match c.env with
  | .inherited => []
  | .only vars => vars.entries

/-- The entries the program finds, when it is started from a process with the entries `own`. -/
def entries (c : Command) (own : List Bytes) : List Bytes :=
  match c.env with
  | .inherited => own
  | .only vars => Environment.render vars.entries

/-- What a command keeps in place of a string that can never reach the kernel. -/
def nulPlaceholder : Bytes := Bytes.ofString "<string-with-nul>"

def listed (b : Bytes) : Bytes := if b.hasNul then nulPlaceholder else b

def listedProgram (c : Command) : Bytes := listed c.program

def listedArgs (c : Command) : List Bytes := c.args.map listed

def hasNul (c : Command) : Bool :=
  c.program.hasNul || c.argv.any Bytes.hasNul ||
    c.vars.any fun v => v.1.hasNul || v.2.hasNul

/-- Starts a helper that listens at `socket`, with a cleared environment and the given pairs in
it; of pairs with one name the last counts. -/
def helper (program socket : Bytes) (spawnEnv : List (Bytes × Bytes)) : Command :=
  { program := program
    arg0 := program
    args := [Bytes.ofString Protocol.helperSubcommand, Bytes.ofString Protocol.socketFlag, socket]
    env := .only (SortedMap.ofPairs spawnEnv)
    detached := true }

def payload (program : Bytes) (argv : List Bytes) : Command :=
  { program := program
    arg0 := argv.head?.getD program
    args := argv.tail
    env := .inherited
    detached := false }

end Command

end HelperHandoff
