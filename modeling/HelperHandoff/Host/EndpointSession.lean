import HelperHandoff.Host.Launch

set_option autoImplicit false

namespace HelperHandoff.Host

structure EndpointSession where
  scene : Scene
  socket : Bytes
  program : Bytes
  spawnEnv : List (Bytes × Bytes)
  listener? : Option Server

namespace EndpointSession

inductive Step where
  | listen (path? : Option Bytes)
  | close
  | unlink
  | script (text : Bytes)
  | connect
  | address
  | program
  | spawn
  | locate (policy : ConnectRetry)

/-- What the watch over a helper had to say, and whether it has let go of it. -/
structure Watched where
  report : Reaper.Report
  reaped : Bool

inductive Answer where
  | done
  | failed (e : IoError)
  | path (p : Bytes)
  | spawned (watched : Option Watched)
  | located (failure : Option HandoffError) (watched : Option Watched)

def scriptName : Bytes := Bytes.ofString Protocol.helperSubcommand

def quiet : Reply := ⟨.silent, 0, [], []⟩

def host (s : EndpointSession) : Host := s.scene.host

def changeHost (s : EndpointSession) (f : Host → Host) : EndpointSession :=
  { s with scene := s.scene.changeHost f }

def endpoint (s : EndpointSession) (intervalMs : Nat) : Endpoint Scene Server :=
  Handoff.endpoint (outsideOf [] intervalMs true).toWorld s.program s.socket s.spawnEnv

def watchInterval : Nat := 250

def mostLooks : Nat := 4000

def watching : Nat → ReaperWatch → Scene → Option Watched × Scene
  | 0, _, s => (none, s)
  | fuel + 1, w, s =>
    let w := w.turn s.poll
    match w.reports.head? with
    | some r => (some ⟨r, w.held.isEmpty⟩, s)
    | none =>
      if s.machine.turns.isEmpty then (none, s)
      else watching fuel w (s.pass standardLauncher watchInterval)

def watch (s : EndpointSession) (before : Nat) : Option Watched × EndpointSession :=
  if s.host.lastPid = before then (none, s)
  else
    let w := ReaperWatch.start.handOver ⟨before + 1, s.socket⟩
    let (watched?, scene) := watching mostLooks w s.scene
    (watched?, { s with scene := if watched?.isSome then scene.forget (before + 1) else scene })

def step (s : EndpointSession) : Step → Answer × EndpointSession
  | .listen path? =>
    match s.host.listen (path?.getD s.socket) quiet none with
    | (.error e, _) => (.failed e, s)
    | (.ok server, h) =>
      let closed := match s.listener? with
        | some old => h.close old
        | none => h
      (.done, { s.changeHost (fun _ => closed) with listener? := some server })
  | .close =>
    match s.listener? with
    | some server => (.done, { s.changeHost (·.close server) with listener? := none })
    | none => (.done, s)
  | .unlink =>
    match s.host.unlink s.socket with
    | (.ok (), h) => (.done, s.changeHost fun _ => h)
    | (.error e, _) => (.failed e, s)
  | .script text =>
    match s.host.writeFile s.scene.machine.world.clock scriptName text with
    | .ok h => (.done, s.changeHost fun _ => h)
    | .error e => (.failed e, s)
  | .connect =>
    match s.host.connect s.socket with
    | .ok _ => (.done, s)
    | .error e => (.failed e, s)
  | .address => (.path ((s.endpoint 0).address s.scene), s)
  | .program => (.path ((s.endpoint 0).program s.scene), s)
  | .spawn =>
    match (s.endpoint 0).spawn s.scene with
    | (.ok (), _, scene) =>
      let (watched?, t) := { s with scene := scene }.watch s.host.lastPid
      (.spawned watched?, t)
    | (.error e, _, _) => (.failed e, s)
  | .locate policy =>
    let start : Scene := { s.scene with pausing := false }
    let found := (s.endpoint policy.intervalMs).locate policy start
    let failure := match found.result with
      | .ok _ => none
      | .error e => some e
    let (watched?, t) := { s with scene := found.endpoint }.watch s.host.lastPid
    (.located failure watched?, t)

def run (s : EndpointSession) : List Step → List Answer × EndpointSession
  | [] => ([], s)
  | st :: rest =>
    let (a, t) := s.step st
    let (as, u) := t.run rest
    (a :: as, u)

end EndpointSession

end HelperHandoff.Host
