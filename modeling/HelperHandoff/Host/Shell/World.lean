import HelperHandoff.Host.Search
import HelperHandoff.Host.Shell.Pipe
import HelperHandoff.Host.Shell.Process

/-!
What processes share, and what a process does in it. Each process has a state of its own; the
host, the open files and the pipes are shared. A step of a process is a value of `Sh`: run on a
state it comes to its end, or stops, or pauses. A pause says when the process goes on, and how:
others have their turn until then. `Sh.spend` lets time go by, `Sh.await` waits for something
that others do, and `Sh.fork` has a child begin.
-/

set_option autoImplicit false

namespace HelperHandoff.Host.Shell

/-- What an open file leads to. -/
inductive Target where
  | device (name : String)
  | file (number : Nat) (location : Location)
  | kept (location : Location) (content : Content)
  | directory (location : Location)
  | input (pipe : Nat)
  | output (pipe : Nat)
  deriving DecidableEq, Repr

/-- An open file. Descriptors of several processes may lead to one. -/
structure OpenFile where
  target : Target
  offset : Nat
  appends : Bool
  reads : Bool
  writes : Bool
  deriving DecidableEq, Repr

namespace OpenFile

def isInput (f : OpenFile) (pipe : Nat) : Bool := f.target == .input pipe

def isOutput (f : OpenFile) (pipe : Nat) : Bool := f.target == .output pipe

end OpenFile

/-- The end of a process that its parent has not yet waited for. -/
structure Ending where
  pid : Nat
  parent : Nat
  how : ExitStatus
  deriving DecidableEq, Repr

structure World where
  host : Host
  opened : Array OpenFile
  pipes : Array Pipe
  clock : Nat
  /-- Up to this time a process may go on before others have a turn. -/
  horizon : Nat
  /-- How many steps all processes together may still make. -/
  budget : Nat
  others : List Process
  endings : List Ending
  signals : List (Nat × Nat)

structure State where
  world : World
  process : Process

/-- Why a process does not go on with what it was doing. -/
inductive Stop where
  | exits (status : Nat)
  | killed (signal : Nat)
  | fault
  | leaves (levels : Nat)
  | continues (levels : Nat)
  | returns (given : Bool)
  | exhausted
  deriving DecidableEq, Repr

inductive Task where
  /-- A script in a copy of the shell, after redirections; whether its failure is looked at. -/
  | script (tested : Bool) (redirections : List Redirection) (body : Script)
  | program (found : Found) (argv : List Bytes)

structure Birth where
  process : Process
  task : Task

/-- When a process goes on: once something is so, or at some time, whichever comes first. -/
structure Pause where
  ready? : Option (State → Bool)
  until? : Option Nat
  child? : Option Birth

/-- A step of a process: it has come to its end, it does not go on with what it was doing, or it
pauses. -/
inductive Step (α : Type) where
  | done (a : α) (s : State)
  | stopped (e : Stop) (s : State)
  | paused (p : Pause) (s : State) (next : State → Step α)

namespace Step

variable {α β : Type}

def bind : Step α → (α → State → Step β) → Step β
  | .done a s, f => f a s
  | .stopped e s, _ => .stopped e s
  | .paused p s next, f => .paused p s fun t => (next t).bind f

def recover : Step α → (Stop → State → Step α) → Step α
  | .done a s, _ => .done a s
  | .stopped e s, f => f e s
  | .paused p s next, f => .paused p s fun t => (next t).recover f

end Step

def Sh (α : Type) : Type := State → Step α

namespace Sh

variable {α β : Type}

@[always_inline, inline] protected def pure (a : α) : Sh α := fun s => .done a s

@[always_inline, inline] protected def bind (m : Sh α) (f : α → Sh β) : Sh β := fun s =>
  match m s with
  | .done a t => f a t
  | .stopped e t => .stopped e t
  | .paused p t next => .paused p t fun u => (next u).bind f

@[always_inline, inline] protected def throw (e : Stop) : Sh α := fun s => .stopped e s

@[always_inline, inline] protected def tryCatch (m : Sh α) (f : Stop → Sh α) : Sh α := fun s =>
  match m s with
  | .done a t => .done a t
  | .stopped e t => f e t
  | .paused p t next => .paused p t fun u => (next u).recover f

instance : Monad Sh where
  pure := Sh.pure
  bind := Sh.bind

instance : MonadStateOf State Sh where
  get := fun s => .done s s
  set s := fun _ => .done () s
  modifyGet f := fun s => match f s with
    | (a, t) => .done a t

instance : MonadExceptOf Stop Sh where
  throw := Sh.throw
  tryCatch := Sh.tryCatch

instance : Inhabited (Sh α) := ⟨throw .exhausted⟩

/-! ### Looking at the state and changing it -/

@[inline] def process : Sh Process := fun s => .done s.process s
@[inline] def world : Sh World := fun s => .done s.world s
@[inline] def host : Sh Host := fun s => .done s.world.host s

@[inline] def changeProcess (f : Process → Process) : Sh Unit := fun s =>
  .done () { s with process := f s.process }

@[inline] def changeWorld (f : World → World) : Sh Unit := fun s =>
  .done () { s with world := f s.world }

def changeHost (f : Host → Host) : Sh Unit :=
  changeWorld fun w => { w with host := f w.host }

def changeTree (f : Tree → Tree) : Sh Unit := changeHost fun h => { h with tree := f h.tree }

def status : Sh Nat := fun s => .done s.process.status s
def setStatus (n : Nat) : Sh Unit := changeProcess fun p => { p with status := n }

def hasMode (c : Char) : Sh Bool := fun s => .done (s.process.modes.contains c) s

def shell : Sh Nat := do
  let p ← process
  return p.shell?.getD p.own.pid

/-! ### Time -/

def commandTime : Nat := 2

def forkTime : Nat := 80

def birthTime : Nat := 80

def startTime : Nat := 300

def wakeTime : Nat := 50

/-- Others have their turn soon: they may be waiting for what has been done. -/
def stir : Sh Unit :=
  changeWorld fun w =>
    if w.others.isEmpty then w else { w with horizon := min w.horizon (w.clock + wakeTime) }

def await (ready : State → Bool) (until? : Option Nat) : Sh Unit := fun s =>
  if ready s then .done () s else .paused ⟨some ready, until?, none⟩ s fun t => .done () t

def yieldUntil (time : Nat) : Sh Unit := fun s =>
  .paused ⟨none, some time, none⟩ s fun t => .done () t

def sleep (microseconds : Nat) : Sh Unit := do
  yieldUntil ((← world).clock + microseconds)

def spend (microseconds : Nat) : Sh Unit := fun s =>
  let time := s.world.clock + microseconds
  if s.world.budget = 0 then .stopped .exhausted s
  else
    let w := { s.world with clock := time, budget := s.world.budget - 1 }
    if time ≤ w.horizon && w.signals.isEmpty then .done () ⟨w, s.process⟩
    else yieldUntil time ⟨w, s.process⟩

/-- Has a child begin, while this process goes on a little later. -/
def fork (b : Birth) : Sh Unit := do
  let time := (← world).clock + forkTime
  fun s => .paused ⟨none, some time, some b⟩ s fun t => .done () t

def post (pid signal : Nat) : Sh Unit :=
  changeWorld fun w => { w with signals := w.signals ++ [(pid, signal)] }

/-! ### Variables -/

def findVariable? (name : String) : Sh (Option Variable) := do
  return (← process).vars.find? (·.name == name)

def value? (name : String) : Sh (Option String) := do
  return (← findVariable? name).bind (·.value?)

def putVariable (v : Variable) : Sh Unit :=
  changeProcess fun p =>
    if p.vars.any (·.name == v.name) then
      { p with vars := p.vars.map fun u => if u.name == v.name then v else u }
    else { p with vars := p.vars ++ [v] }

def dropVariable (name : String) : Sh Unit :=
  changeProcess fun p => { p with vars := p.vars.filter (·.name != name) }

def separators : Sh String := do return (← value? "IFS").getD " \t\n"

def entries : Sh (List Bytes) := do return environment (← process).vars

end Sh

end HelperHandoff.Host.Shell
