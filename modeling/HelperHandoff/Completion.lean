import HelperHandoff.Counter.Guard

/-!
Waiting for the exit code. The client owns a counter and lets a monitor thread wait for it; it
takes the monitor's message or lets its deadline pass, reads the counter, removes it, and, if it
was the one to remove it, joins the monitor. Each of these is a move of its own, and between two
moves anybody else may set or remove the counter. `Race.run` plays any order of turns; a client
whose turns run out has not returned, and `Race.closing` is enough for it to get to its end.
-/

set_option autoImplicit false

namespace HelperHandoff.Completion

open Counter (Guard Store)

abbrev Outcome := Except HandoffError Int32

/-- Where the client is on its way through one completion. -/
inductive Stage where
  | receiving
  /-- About to read the counter: after the monitor's message, or after the deadline. -/
  | reading (woken : Bool)
  | removing (outcome : Outcome)
  | joining (outcome : Outcome)
  | returned (outcome : Outcome)

structure Client where
  guard : Guard
  timeoutMs : Nat
  monitor : Nat
  /-- The monitor has sent its message and ended. -/
  sent : Bool
  inbox : Option (Option Errno)
  stage : Stage
  acts : List Act

inductive Move where
  | monitorCalls
  | monitorInterrupted
  | monitorSends
  | receive
  | deadline
  | read
  | remove
  | join
  deriving DecidableEq, Repr

def restingText : String := "woken while counter still at resting value"

/-- What the client makes of the counter: the value it holds, or that it is gone. A client that
was woken expects a code; one whose deadline has passed is content with none. -/
def judge (timeoutMs : Nat) (woken : Bool) (value : Except Errno Int32) : Outcome :=
  match woken, value with
  | true, .ok v =>
    match ExitCode.decode? v with
    | some code => .ok code
    | none => .error (.counterLost (.explained .other restingText))
  | true, .error e => .error (.counterLost (.system e))
  | false, .ok v =>
    match ExitCode.decode? v with
    | some code => .ok code
    | none => .error (.waitTimeout timeoutMs)
  | false, .error _ => .error (.waitTimeout timeoutMs)

/-- A code that was there when the deadline passed is worth a report. -/
def judgeActs (counter : Int) (woken : Bool) : Outcome → List Act
  | .ok code => if woken then [] else [.report (.racedDeadline counter code.toInt)]
  | .error _ => []

namespace Client

def start (g : Guard) (timeoutMs : Nat) (s : Store) : Store × Client :=
  let (w, t) := s.enter g.counter
  (t, ⟨g, timeoutMs, w, false, none, .receiving, []⟩)

def step (m : Move) (s : Store) (c : Client) : Option (Store × Client) :=
  match m with
  | .monitorCalls =>
    match s.stage? c.monitor with
    | some .calling => some (s.call c.monitor, c)
    | _ => none
  | .monitorInterrupted =>
    match s.stage? c.monitor with
    | some .parked => some (s.interrupt c.monitor, c)
    | _ => none
  | .monitorSends =>
    match s.stage? c.monitor, c.sent with
    | some (.returned failure), false => some (s, { c with sent := true, inbox := some failure })
    | _, _ => none
  | .receive =>
    match c.stage, c.inbox with
    | .receiving, some none => some (s, { c with inbox := none, stage := .reading true })
    | .receiving, some (some e) =>
      some (s, { c with inbox := none, stage := .removing (.error (.counterLost (.system e))) })
    | _, _ => none
  | .deadline =>
    match c.stage, c.inbox with
    | .receiving, none => some (s, { c with stage := .reading false })
    | _, _ => none
  | .read =>
    match c.stage with
    | .reading woken =>
      let outcome := judge c.timeoutMs woken (s.read c.guard.counter)
      let acts := judgeActs c.guard.counter woken outcome
      some (s, { c with stage := .removing outcome, acts := c.acts ++ acts })
    | _ => none
  | .remove =>
    match c.stage with
    | .removing outcome =>
      let r := c.guard.destroy s
      match r.failure with
      | none =>
        some (r.store, { c with
          guard := r.guard, stage := .joining outcome, acts := c.acts ++ r.acts })
      | some e =>
        let acts := r.acts ++ [.report (.counterRemoveFailed c.guard.counter (.system e))]
        some (r.store, { c with
          guard := r.guard, stage := .returned outcome, acts := c.acts ++ acts })
    | _ => none
  | .join =>
    match c.stage, c.sent with
    | .joining outcome, true => some (s, { c with stage := .returned outcome })
    | _, _ => none

def result? (c : Client) : Option Outcome :=
  match c.stage with
  | .returned outcome => some outcome
  | _ => none

end Client

inductive Hand where
  | publish (code : Int32)
  | set (value : Int32)
  | remove
  deriving DecidableEq, Repr

def Hand.act (h : Hand) (id : Int) (s : Store) : Option Errno × Store :=
  match h with
  | .publish code => s.publish id code
  | .set value => s.set id value
  | .remove => s.remove id

structure Deed where
  hand : Hand
  failure : Option Errno
  deriving DecidableEq, Repr

def Hand.actAll (id : Int) : List Hand → Store → List Deed × Store
  | [], s => ([], s)
  | h :: rest, s =>
    let (failure, t) := h.act id s
    let (deeds, u) := actAll id rest t
    (⟨h, failure⟩ :: deeds, u)

inductive Turn where
  | own (m : Move)
  | other (h : Hand)
  deriving DecidableEq, Repr

/-- One completion between a client and the hands of others. -/
structure Race where
  store : Store
  client : Client
  deeds : List Deed

namespace Race

def start (g : Guard) (timeoutMs : Nat) (s : Store) : Race :=
  let (t, c) := Client.start g timeoutMs s
  ⟨t, c, []⟩

/-- The client starts to wait when others have had their hands on the counter already. -/
def startAfter (early : List Hand) (g : Guard) (timeoutMs : Nat) (s : Store) : Race :=
  let (deeds, t) := Hand.actAll g.counter early s
  { start g timeoutMs t with deeds := deeds }

def step (turn : Turn) (r : Race) : Option Race :=
  match turn with
  | .own m => (r.client.step m r.store).map fun (s, c) => { r with store := s, client := c }
  | .other h =>
    let (failure, s) := h.act r.client.guard.counter r.store
    some { r with store := s, deeds := r.deeds ++ [⟨h, failure⟩] }

def run (turns : List Turn) (r : Race) : Race :=
  turns.foldl (fun r turn => (r.step turn).getD r) r

/-- The client's way to its end as long as it needs no deadline: the monitor gets its turn before
the client looks, and again after the removal has ended its wait. -/
def prompt : List Turn :=
  [.own .monitorCalls, .own .monitorSends, .own .receive, .own .read, .own .remove,
   .own .monitorCalls, .own .monitorSends, .own .join]

/-- The way to the end with the deadline on it. -/
def closing : List Turn := prompt ++ .own .deadline :: prompt

def result? (r : Race) : Option Outcome := r.client.result?

def replies (r : Race) : List (Option Errno) := r.deeds.map Deed.failure

@[simp] theorem run_nil (r : Race) : r.run [] = r := rfl

@[simp] theorem run_cons (turn : Turn) (turns : List Turn) (r : Race) :
    r.run (turn :: turns) = ((r.step turn).getD r).run turns := rfl

theorem run_append (a b : List Turn) (r : Race) : r.run (a ++ b) = (r.run a).run b := by
  simp [run]

end Race

end HelperHandoff.Completion
