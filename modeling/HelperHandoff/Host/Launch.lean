import HelperHandoff.Client
import HelperHandoff.Host.Probe
import HelperHandoff.Host.Shell.Run
import HelperHandoff.Reaper

/-!
Running programs on a host. What has been started goes on by itself while its starter does other
things: a `Scene` is a host with all that runs on it, and time goes by on it when the client
pauses. A client that runs on the host sees the same host as its outside: it finds helpers that
listen on it and starts further programs on it.
-/

set_option autoImplicit false

namespace HelperHandoff.Host

open Completion (Race Turn)
open Shell (Face Launcher Machine OpenFile Process Task Thread)

def handsOf (r : Reply) : List Completion.Hand :=
  match r.kind with
  | .exit => [.publish r.code]
  | .raw => [.set r.code]
  | .remove => [.remove]
  | .silent => []

/-- The turns of a completion with a server of this host: the monitor is in its wait when the
server answers. A client without patience is gone by then. -/
def turnsWith (patient : Bool) (server : Server) : List Turn :=
  let hands := (handsOf server.reply).map Turn.other
  if patient then .own .monitorCalls :: hands ++ Race.closing
  else .own .deadline :: Race.closing ++ hands

/-! ### What runs on a host -/

def mostSteps : Nat := 4000000

def streams : Array OpenFile :=
  #[⟨.device "null", 0, false, true, true⟩, ⟨.output 0, 0, false, false, true⟩,
    ⟨.output 1, 0, false, false, true⟩]

/-- A host with all that runs on it. -/
structure Scene where
  machine : Machine
  pausing : Bool

namespace Scene

def still (h : Host) : Scene where
  machine :=
    { world :=
        { host := h
          opened := streams
          pipes := #[.empty true, .empty true]
          clock := File.epoch
          horizon := 0
          budget := mostSteps
          others := []
          endings := []
          signals := [] }
      threads := []
      watched := [] }
  pausing := false

def host (s : Scene) : Host := s.machine.world.host

def changeHost (s : Scene) (f : Host → Host) : Scene :=
  { s with machine := s.machine.changeHost f }

def output (s : Scene) (stream : Nat) : Bytes :=
  (s.machine.world.pipes[stream - 1]?.map (·.content)).getD []

def start (launch : Launcher) (own : List Bytes) (c : Command) (s : Scene) :
    Except IoError Nat × Scene :=
  let h := s.host
  match h.wouldRun c own with
  | .error e => (.error e, s)
  | .ok found =>
    let pid := h.lastPid + 1
    let face : Face :=
      { pid := pid
        parent := 1
        group := pid
        session := if c.detached then pid else 1
        executable := found.location
        argv := c.argv
        birth := c.entries own
        descriptors := if c.detached then [(0, 0), (1, 0), (2, 0)] else [(0, 0), (1, 1), (2, 2)] }
    let thread := Thread.start (Shell.Run.perform launch) s.machine.world.clock
      ⟨.start face h.cwd, .program found c.argv⟩
    let m := s.machine.changeHost fun h => { h with lastPid := pid }
    (.ok pid, { machine := { m with threads := m.threads ++ [thread], watched := pid :: m.watched }
                pausing := false })

def pass (launch : Launcher) (ms : Nat) (s : Scene) : Scene :=
  { s with machine :=
      s.machine.runUntil (Shell.Run.perform launch) (s.machine.world.clock + ms * 1000) }

def connect (launch : Launcher) (intervalMs : Nat) (path : Bytes) (s : Scene) :
    Except IoError Server × Scene :=
  let t := if s.pausing then s.pass launch intervalMs else s
  (t.host.connect path, { t with pausing := true })

/-- Whether a child goes on, or somebody may still write to a stream of the client. -/
def goesOn (pid : Nat) (m : Machine) : Bool :=
  m.threads.any fun t =>
    t.pid == pid || t.process.own.descriptors.any fun d => d.2 == 1 || d.2 == 2

def finish (launch : Launcher) (pid : Nat) (s : Scene) : Scene :=
  { s with machine := s.machine.runWhile (Shell.Run.perform launch) (goesOn pid) }

def forget (s : Scene) (pid : Nat) : Scene :=
  let w := s.machine.world
  let endings := w.endings.filter (·.pid != pid)
  { s with machine := { s.machine with world := { w with endings := endings } } }

def poll (s : Scene) (pid : Nat) : Reaper.Poll :=
  match s.host.exits.lookup pid with
  | some status => .ended status
  | none => .running

end Scene

/-! ### Clients -/

/-- The outside of a client with the environment `own` that pauses between its attempts to
connect. Whoever listens reads what is sent. -/
def outside (launch : Launcher) (own : List Bytes) (intervalMs : Nat) (patient : Bool) :
    Outside Scene Server Handle where
  stdin := .standard 0
  stdout := .standard 1
  stderr := .standard 2
  openDirectory p s := (s.host.openDirectory p).map .directory
  connect p s := s.connect launch intervalMs p
  spawn c s := s.start launch own c
  counterRefusal _ := none
  restRefusal _ := none
  answers _ message _ := [Transport.Peer.reads.answer true message.bytes.length]
  meanwhile _ _ _ := []
  monitorRefusal _ := none
  turns server _ _ := turnsWith patient server
  isFile s p := s.host.isFile p
  execFailure c s :=
    match s.host.wouldRun c own with
    | .ok _ => none
    | .error e => some e

def served (r : Handoff.Report Scene Server Handle) : Host :=
  let h := r.state.host
  match r.connection? with
  | some server => { h with services := h.services ++ [⟨server, r.message, r.replies⟩] }
  | none => h

def written (h : Host) (stream : Nat) (text : Server → Bytes) : Bytes :=
  h.services.flatMap fun s =>
    if s.message.files.contains (.standard stream) then text s.server else []

def viewOf (h : Host) (pid : Nat) (exe : Location) (begun : Started) : ProcessView :=
  { pid := UInt32.ofNat pid
    env := begun.entries
    argv := begun.argv
    cwd := .ok (Location.path h.cwd)
    executable := some (Location.path exe) }

def client (launch : Launcher) (exe : Location) (begun : Started) (pid : Nat) (h : Host) :
    Course :=
  let p := viewOf h pid exe begun
  let policy := ConnectRetry.default
  let O := outside launch begun.entries policy.intervalMs true
  let course := Client.run O p (.still h) .empty
  let t := (course.handoff?.map served).getD h
  match course.ending? with
  | none => .stays t
  | some (.exits status said) =>
    { host := t
      fate := .ended (.exited status)
      out := t.written 1 (·.reply.out)
      err := t.written 2 (·.reply.err) ++ Bytes.ofString said }
  | some (.becomes c) =>
    let entries := c.entries begun.entries
    match t.wouldRun c begun.entries with
    | .ok next => ⟨t, .becomes next c.argv entries, [], []⟩
    | .error _ => .stays t

/-- What programs do that are neither shells nor small programs. The depth bounds how many clients
may stand behind one another. -/
def launcher : Nat → Launcher
  | 0 => fun _ _ _ _ h => .stays h
  | depth + 1 => fun exe program begun pid h =>
    match program with
    | .probe => Probe.run h begun
    | .client => client (launcher depth) exe begun pid h
    | .shell | .script _ | .tool _ => .stays h

def deepest : Nat := 16

def standardLauncher : Launcher := launcher deepest

def outsideOf (own : List Bytes) (intervalMs : Nat) (patient : Bool) :
    Outside Scene Server Handle :=
  outside standardLauncher own intervalMs patient

structure Outcome where
  pid : Nat
  status? : Option ExitStatus
  out : Bytes
  err : Bytes

def runCommand (own : List Bytes) (c : Command) (h : Host) : Except IoError (Outcome × Host) :=
  match (Scene.still h).start standardLauncher own c with
  | (.error e, _) => .error e
  | (.ok pid, s) =>
    let t := s.finish standardLauncher pid
    .ok (⟨pid, t.host.exits.lookup pid, t.output 1, t.output 2⟩, t.host)

end HelperHandoff.Host
