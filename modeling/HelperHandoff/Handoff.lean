import HelperHandoff.Command
import HelperHandoff.Completion
import HelperHandoff.Invocation.Payload
import HelperHandoff.Locator
import HelperHandoff.Transport

/-!
One handoff from end to end: open the working directory, find a helper, create the counter, send
the message, wait for the code. A failure ends it there, with its own terminal state. The outside
is a `World`, any machine that answers the client's requests; where its answers run out the client
has not returned, and the report has no result.
-/

set_option autoImplicit false

namespace HelperHandoff

/-- The outside of a handoff. `κ` are its connections and `φ` its open files. -/
structure World (σ κ φ : Type) where
  stdin : φ
  stdout : φ
  stderr : φ
  openDirectory : Bytes → σ → Except IoError φ
  connect : Bytes → σ → Except IoError κ × σ
  spawn : Command → σ → Except IoError Nat × σ
  counterRefusal : σ → Option IoError
  restRefusal : σ → Option IoError
  /-- The kernel's answers to the attempts to send a message. -/
  answers : κ → Message φ → σ → List Transmission
  meanwhile : κ → Message φ → σ → List Completion.Hand
  monitorRefusal : σ → Option IoError
  turns : κ → Message φ → σ → List Completion.Turn

namespace Handoff

open Completion (Hand Race)
open Counter (Guard Store)

variable {σ κ φ : Type}

/-- The endpoint of a helper at a socket, started as a program of its own when nobody answers. -/
def endpoint (W : World σ κ φ) (program socket : Bytes) (spawnEnv : List (Bytes × Bytes)) :
    Endpoint σ κ where
  connect := W.connect socket
  spawn s :=
    match W.spawn (Command.helper program socket spawnEnv) s with
    | (.ok pid, t) => (.ok (), [.helperSpawned pid program socket], t)
    | (.error e, t) => (.error e, [], t)
  address _ := socket
  program _ := program

structure Report (σ κ φ : Type) where
  result? : Option (Except HandoffError Int32)
  acts : List Act
  connection? : Option κ
  message : Message φ
  replies : List (Option Errno)
  state : σ
  store : Store

namespace Report

def after (acts : List Act) (r : Report σ κ φ) : Report σ κ φ := { r with acts := acts ++ r.acts }

def failed (e : HandoffError) (acts : List Act) (connection? : Option κ) (state : σ)
    (store : Store) : Report σ κ φ :=
  ⟨some (.error e), acts, connection?, .empty, [], state, store⟩

/-- The state a handoff ends in is the last thing it reports. -/
def closed (r : Report σ κ φ) : Report σ κ φ :=
  match r.result? with
  | some (.ok code) => { r with acts := r.acts ++ [.report (.completed code.toInt)] }
  | some (.error e) => { r with acts := r.acts ++ [.report (.failed e)] }
  | none => r

end Report

/-- An owner that has nothing to wait for removes its counter. -/
def giveUp (e : HandoffError) (acts : List Act) (conn : κ) (message : Message φ)
    (early : List Hand) (g : Guard) (state : σ) (store : Store) : Report σ κ φ :=
  let (deeds, t) := Hand.actAll g.counter early store
  let (dropped, u) := g.drop t
  ⟨some (.error e), acts ++ dropped, some conn, message, deeds.map (·.failure), state, u⟩

def await (W : World σ κ φ) (config : Config) (conn : κ) (message : Message φ)
    (early : List Hand) (g : Guard) (state : σ) (store : Store) : Report σ κ φ :=
  let waiting : Act := .report (.entered .waiting)
  match W.monitorRefusal state with
  | some e => giveUp (.counterLost e) [waiting] conn message early g state store
  | none =>
    let r := (Race.startAfter early g config.waitMs store).run (W.turns conn message state)
    { result? := r.result?
      acts := waiting :: r.client.acts
      connection? := some conn
      message := message
      replies := r.replies
      state := state
      store := r.store }

def deliver (W : World σ κ φ) (config : Config) (i : Invocation) (bundle : Bundle φ) (conn : κ)
    (g : Guard) (state : σ) (store : Store) : Report σ κ φ :=
  let payload := (i.payload (Int32.ofInt g.counter)).bytes
  let s := Transport.send payload bundle (W.answers conn ⟨payload, bundle.files⟩ state)
  let early := W.meanwhile conn s.message state
  match s.result? with
  | none => ⟨none, s.acts, some conn, s.message, [], state, store⟩
  | some (.error e) => giveUp e s.acts conn s.message early g state store
  | some (.ok ()) =>
    (await W config conn s.message early g state store).after
      (s.acts ++ [.report (.entered .sent)])

def allocate (W : World σ κ φ) (config : Config) (i : Invocation) (bundle : Bundle φ) (conn : κ)
    (state : σ) (store : Store) : Report σ κ φ :=
  match W.counterRefusal state, W.restRefusal state with
  | some e, _ =>
    .failed (.counterAlloc e) [.createCounter (some e)] (some conn) state store
  | none, some e =>
    let (acts, t) := Guard.abandon store
    .failed (.counterAlloc e) acts (some conn) state t
  | none, none =>
    let (g, created, t) := Guard.create store
    (deliver W config i bundle conn g state t).after
      (created ++ [.report (.entered .counterAllocated)])

def search (W : World σ κ φ) (config : Config) (i : Invocation) (bundle : Bundle φ)
    (state : σ) (store : Store) : Report σ κ φ :=
  let found := (endpoint W config.helperProgram config.socketPath i.spawnEnv).locate
    config.connect state
  let acts := .report (.entered .locating) :: found.acts
  match found.result with
  | .error e => .failed e acts none found.endpoint store
  | .ok conn =>
    (allocate W config i bundle conn found.endpoint store).after
      (acts ++ [.report (.entered .connected)])

def steps (W : World σ κ φ) (config : Config) (i : Invocation) (state : σ) (store : Store) :
    Report σ κ φ :=
  match W.openDirectory i.cwd state with
  | .error e =>
    .failed (.setup "open working directory" e) [.openDirectory (some e)] none state store
  | .ok cwd =>
    (search W config i ⟨W.stdin, W.stdout, W.stderr, cwd⟩ state store).after
      [.openDirectory none]

def run (W : World σ κ φ) (config : Config) (i : Invocation) (state : σ) (store : Store) :
    Report σ κ φ :=
  (steps W config i state store).closed

/-- The handoff of a process. One that cannot be captured ends before there is a state to end
in. -/
def runFor (W : World σ κ φ) (config : Config) (p : ProcessView) (state : σ) (store : Store) :
    Report σ κ φ :=
  let idle : List Act :=
    .report (.entered .idle) :: (Invocation.captureEvents p config.controlVar).map .report
  match Invocation.capture p config.controlVar with
  | .error e => .failed e idle none state store
  | .ok i => (run W config i state store).after idle

end Handoff

end HelperHandoff
