import HelperHandoff.Host.Shell.World

/-!
All processes of a host, each at the point that it has come to. The one whose turn comes first in
time goes on until it pauses or ends; signals that it sent are delivered then. Whoever waits for
something is looked at each time anew.
-/

set_option autoImplicit false

namespace HelperHandoff.Host.Shell

/-- A process with what it goes on with. -/
structure Thread where
  process : Process
  /-- What lets it go on before its time. -/
  ready? : Option (State → Bool)
  until? : Option Nat
  next : State → Step ExitStatus

structure Machine where
  world : World
  threads : List Thread
  watched : List Nat

namespace Thread

def pid (t : Thread) : Nat := t.process.own.pid

def start (perform : Task → Sh ExitStatus) (time : Nat) (b : Birth) : Thread :=
  ⟨b.process, none, some time, perform b.task⟩

def stuck (t : Thread) (p : Process) : Thread :=
  { t with process := p, ready? := none, until? := none }

def turn? (t : Thread) (w : World) : Option Nat :=
  match t.ready? with
  | none => t.until?
  | some ready => if ready ⟨w, t.process⟩ then some w.clock else t.until?

end Thread

namespace Machine

def othersOf (m : Machine) (pid : Nat) : List Process :=
  m.threads.filterMap fun t => if t.pid == pid then none else some t.process

def find? (m : Machine) (pid : Nat) : Option Thread := m.threads.find? (·.pid == pid)

def change (m : Machine) (pid : Nat) (f : Thread → Thread) : Machine :=
  { m with threads := m.threads.map fun t => if t.pid == pid then f t else t }

def changeHost (m : Machine) (f : Host → Host) : Machine :=
  { m with world := { m.world with host := f m.world.host } }

/-! ### Ends -/

def childSignal : Nat := 17

/-- A process is gone. Its parent, if there is one, is told; its children have none any more. -/
def finish (m : Machine) (pid : Nat) (how : ExitStatus) : Machine :=
  match m.find? pid with
  | none => m
  | some t =>
    let parent := t.process.own.parent
    let adopt (p : Process) : Process :=
      if p.own.parent == pid then { p with own := { p.own with parent := 1 } } else p
    let tell (p : Process) : Process :=
      if p.own.pid == parent && p.effect childSignal == .noted then p.note childSignal else p
    let others := (m.threads.filter (·.pid != pid)).map fun u =>
      { u with process := tell (adopt u.process) }
    let known := others.any (·.pid == parent)
    let endings := m.world.endings.filter (·.parent != pid)
    let watched := m.watched.contains pid
    let w := { m.world with
      endings := if known || watched then endings ++ [⟨pid, parent, how⟩] else endings }
    let n : Machine := { m with world := w, threads := others }
    if watched then
      n.changeHost fun h => { h with exits := h.exits ++ [(pid, how)] }
    else n

/-! ### Signals -/

def deliver (m : Machine) (pid signal : Nat) : Machine :=
  match m.find? pid with
  | none => m
  | some t =>
    match t.process.effect signal with
    | .nothing => m
    | .noted => m.change pid fun t => { t with process := t.process.note signal }
    | .kills => m.finish pid (.killed signal)

def deliverAll (m : Machine) : Machine :=
  m.world.signals.foldl (fun m s => m.deliver s.1 s.2)
    { m with world := { m.world with signals := [] } }

/-! ### Turns -/

def turns (m : Machine) : List (Nat × Thread) :=
  m.threads.filterMap fun t =>
    let w := if t.ready?.isSome then { m.world with others := m.othersOf t.pid } else m.world
    (t.turn? w).map (·, t)

def earliest : List (Nat × Thread) → Option (Nat × Thread)
  | [] => none
  | a :: rest =>
    match earliest rest with
    | some b => if b.1 < a.1 then some b else some a
    | none => some a

/-- For how long a process may run on when others could go on as well. -/
def quantum : Nat := 20

/-- Lets a process have its turn, up to some time. -/
def give (perform : Task → Sh ExitStatus) (m : Machine) (time limit : Nat) (t : Thread) :
    Machine :=
  let w := { m.world with clock := time, horizon := limit, others := m.othersOf t.pid }
  let others := m.threads.filter (·.pid != t.pid)
  let after (s : State) (threads : List Thread) : Machine :=
    { m with world := s.world, threads := others ++ threads }
  match t.next ⟨w, t.process⟩ with
  | .done how s => (after s [t.stuck s.process]).finish t.pid how
  | .stopped (.killed n) s => (after s [t.stuck s.process]).finish t.pid (.killed n)
  | .stopped (.exits n) s =>
    (after s [t.stuck s.process]).finish t.pid (.exited (UInt8.ofNat n))
  | .stopped _ s => after s [t.stuck s.process]
  | .paused p s next =>
    let own := { t with process := s.process, ready? := p.ready?, until? := p.until?, next := next }
    let born := p.child?.toList.map (Thread.start perform (s.world.clock + Sh.birthTime))
    after s (own :: born)

def step? (perform : Task → Sh ExitStatus) (limit : Nat) (m : Machine) : Option Machine :=
  let turns := m.turns
  match earliest turns with
  | none => none
  | some (time, t) =>
    if limit < time then none
    else
      let others := turns.filter (·.2.pid != t.pid)
      let horizon := match earliest others with
        | some (next, _) => min limit (next + quantum)
        | none => limit
      some (m.give perform time horizon t).deliverAll

def run (perform : Task → Sh ExitStatus) (going : Machine → Bool) (limit : Nat) :
    Nat → Machine → Machine
  | 0, m => m
  | fuel + 1, m =>
    if going m then
      match m.step? perform limit with
      | some n => run perform going limit fuel n
      | none => m
    else m

def mostTurns : Nat := 1000000000000

def endOfTime : Nat := 1000000000000000000

def runUntil (perform : Task → Sh ExitStatus) (time : Nat) (m : Machine) : Machine :=
  let n := m.run perform (fun _ => true) time mostTurns
  { n with world := { n.world with clock := max time n.world.clock } }

def runWhile (perform : Task → Sh ExitStatus) (going : Machine → Bool) (m : Machine) : Machine :=
  m.run perform going endOfTime mostTurns

end Machine

end HelperHandoff.Host.Shell
