import HelperHandoff.Environment
import HelperHandoff.ExitStatus
import HelperHandoff.Host.Tree
import HelperHandoff.Host.Shell.Script
import HelperHandoff.Text.Latin1

set_option autoImplicit false

namespace HelperHandoff.Host.Shell

structure Variable where
  name : String
  value? : Option String
  exported : Bool
  readOnly : Bool

/-- Processes that a shell has started by one command: each with how it ended; the last one names
the job. -/
structure Job where
  members : List (Nat × Option ExitStatus)
  waitedFor : Bool
  deriving DecidableEq, Repr

namespace Job

def pid (j : Job) : Nat := (j.members.getLast?.map (·.1)).getD 0

def ending? (j : Job) : Option ExitStatus :=
  if j.members.all (·.2.isSome) then j.members.getLast?.bind (·.2) else none

end Job

/-- What others see of a process. -/
structure Face where
  pid : Nat
  parent : Nat
  group : Nat
  session : Nat
  executable : Location
  argv : List Bytes
  birth : List Bytes
  descriptors : List (Nat × Nat)

structure Process where
  own : Face
  /-- The number of the shell that this process was forked from, if it is not a shell itself. -/
  shell? : Option Nat
  cwd : Location
  directory : String
  mask : Nat
  limits : List (Char × Option Nat)
  arg0 : String
  args : List String
  vars : List Variable
  functions : List (String × Script)
  modes : List Char
  /-- What is done on a signal; nothing is done for an empty text. The end is signal 0. -/
  traps : List (Nat × String)
  /-- Signals that were ignored when the process began, which it cannot change. -/
  immune : List Nat
  pending : List Nat
  status : Nat
  trapStatus? : Option Nat
  outputStatus : Nat
  background? : Option Nat
  jobs : List Job
  loops : Nat
  functionDepth : Nat
  hidden : List (List (String × Option Variable))
  line : Nat
  command? : Option String
  /-- Nothing is left for this process to do after what it is running. -/
  last : Bool
  outputFault? : Option Errno

namespace Process

def start (own : Face) (cwd : Location) : Process :=
  { own := own
    shell? := none
    cwd := cwd
    directory := Latin1.decode (Location.path cwd)
    mask := 0o022
    limits := []
    arg0 := ""
    args := []
    vars := []
    functions := []
    modes := []
    traps := []
    immune := []
    pending := []
    status := 0
    trapStatus? := none
    outputStatus := 0
    background? := none
    jobs := []
    loops := 0
    functionDepth := 0
    hidden := []
    line := 1
    command? := none
    last := false
    outputFault? := none }

/-! ### Signals -/

/-- Signals by which a process stops. Nobody lets it go on again here, so they do nothing. -/
def isStop (signal : Nat) : Bool := 19 ≤ signal && signal ≤ 22

inductive Effect where
  | nothing
  | noted
  | kills
  deriving DecidableEq, Repr

def effect (p : Process) (signal : Nat) : Effect :=
  if signal == 9 then .kills
  else if p.immune.contains signal then .nothing
  else
    match p.traps.lookup signal with
    | some "" => .nothing
    | some _ => .noted
    | none =>
      if isStop signal || ExitStatus.isHarmless signal then .nothing else .kills

def ignored (p : Process) : List Nat :=
  p.immune ++ (p.traps.filter fun t => t.1 != 0 && t.2.isEmpty).map (·.1)

def note (p : Process) (signal : Nat) : Process := { p with pending := p.pending ++ [signal] }

def withoutTraps (p : Process) : Process :=
  { p with traps := p.traps.filter fun t => t.2.isEmpty, pending := [] }

/-- A process that is about to become another program: what it ignores it ignores for good. -/
def settledSignals (p : Process) : Process :=
  { p with immune := p.ignored.eraseDups, traps := [], pending := [] }

/-! ### Limits -/

def limit? (p : Process) (letter : Char) : Option Nat := (p.limits.lookup letter).join

def setLimit (p : Process) (letter : Char) (bound : Option Nat) : Process :=
  { p with limits := (letter, bound) :: p.limits.filter (·.1 != letter) }

/-! ### Descriptors -/

def descriptor? (p : Process) (n : Nat) : Option Nat := p.own.descriptors.lookup n

def changeDescriptors (p : Process) (f : List (Nat × Nat) → List (Nat × Nat)) : Process :=
  { p with own := { p.own with descriptors := f p.own.descriptors } }

def setDescriptor (p : Process) (n : Nat) (file? : Option Nat) : Process :=
  p.changeDescriptors fun ds =>
    let others := ds.filter (·.1 != n)
    match file? with
    | some file => (n, file) :: others
    | none => others

end Process

/-! ### The environment -/

def slotOf (name : String) : Nat :=
  let codes := name.toList.map Char.toNat
  (codes.foldl (· + ·) (codes.head?.getD 0 * 16)) % 39

/-- The environment that programs get: slot after slot of the table, within a slot by age. -/
def environment (vars : List Variable) : List Bytes :=
  let given := vars.filterMap fun v => if v.exported then v.value?.map (v.name, ·) else none
  (given.mergeSort fun u v => slotOf u.1 ≤ slotOf v.1).map fun v =>
    Latin1.encode (v.1 ++ "=" ++ v.2)

end HelperHandoff.Host.Shell
