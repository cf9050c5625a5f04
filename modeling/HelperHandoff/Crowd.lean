import HelperHandoff.Counter.Session

/-!
Any number of parties over one set of counters. A party is about one counter: it owns the counter
and may wait for a completion of it, or it knows the number and acts on the counter, or it is a
thread that waits for it. Every turn is one call to the kernel or one move of a completion, so that
the turns of all parties can come in any order. `Crowd.run` plays them and passes over those that
cannot be made.
-/

set_option autoImplicit false

namespace HelperHandoff

open Completion (Client Hand Move)
open Counter (Answer Guard Store)

namespace Crowd

/-- What a party is to its counter. -/
inductive Tenure where
  | knows
  | waits (waiter : Nat)
  | owns (g : Guard)
  | completes (c : Client)
  /-- The owner's life has ended, after a completion with this outcome if there was one. -/
  | parted (g : Guard) (outcome : Option Completion.Outcome)

inductive Deal where
  | create
  /-- A new counter cannot be set to rest, for this reason. -/
  | abandon (e : Errno)
  | know (id : Int)
  | value
  | hand (h : Hand)
  | destroy
  | drop
  | wait
  | call
  | interrupt
  | await (timeoutMs : Nat)
  | move (m : Move)
  deriving DecidableEq, Repr

structure Party where
  counter : Int
  tenure : Tenure
  /-- What the owner has done, apart from a completion that is under way. -/
  acts : List Act
  log : List (Deal × Answer)

structure Reply where
  answer : Answer
  party : Party
  store : Store

def answerOf : Option Counter.Stage → Answer
  | some (.returned failure) => .ofFailure failure
  | _ => .blocked

def answerOfRead : Except Errno Int32 → Answer
  | .ok v => .number v.toInt
  | .error e => .failed e

def arrive (d : Deal) (s : Store) : Option Reply :=
  match d with
  | .create =>
    let (g, acts, t) := Guard.create s
    some ⟨.done, ⟨g.counter, .owns g, acts, []⟩, t⟩
  | .abandon e =>
    let (acts, t) := Guard.abandon s
    some ⟨.failed e, ⟨s.create.1, .parted ⟨s.create.1, true⟩ none, acts, []⟩, t⟩
  | .know id => some ⟨.done, ⟨id, .knows, [], []⟩, s⟩
  | _ => none

namespace Party

def note (p : Party) (d : Deal) (a : Answer) : Party := { p with log := p.log ++ [(d, a)] }

def act (d : Deal) (p : Party) (s : Store) : Option Reply :=
  match d, p.tenure with
  | .value, _ => some ⟨answerOfRead (s.read p.counter), p, s⟩
  | .hand h, _ =>
    let (failure, t) := h.act p.counter s
    some ⟨.ofFailure failure, p, t⟩
  | .destroy, .owns g =>
    let r := g.destroy s
    some ⟨.ofFailure r.failure, { p with tenure := .owns r.guard, acts := p.acts ++ r.acts }, r.store⟩
  | .drop, .owns g =>
    let r := g.destroy s
    some ⟨.done, { p with tenure := .parted r.guard none, acts := p.acts ++ r.acts }, r.store⟩
  | .drop, .completes c =>
    let r := c.guard.destroy s
    some ⟨.done,
      { p with tenure := .parted r.guard c.result?, acts := p.acts ++ (c.acts ++ r.acts) }, r.store⟩
  | .wait, .knows =>
    let (w, t) := s.enter p.counter
    some ⟨.done, { p with tenure := .waits w }, t⟩
  | .call, .waits w =>
    let t := s.call w
    some ⟨answerOf (t.stage? w), p, t⟩
  | .interrupt, .waits w => some ⟨.stillWaiting, p, s.interrupt w⟩
  | .await timeoutMs, .owns g =>
    let (t, c) := Client.start g timeoutMs s
    some ⟨.done, { p with tenure := .completes c }, t⟩
  | .move m, .completes c =>
    (c.step m s).map fun (t, c) => ⟨.done, { p with tenure := .completes c }, t⟩
  | _, _ => none

def result? (p : Party) : Option Completion.Outcome :=
  match p.tenure with
  | .completes c => c.result?
  | .parted _ outcome => outcome
  | _ => none

def history (p : Party) : List Act :=
  match p.tenure with
  | .completes c => p.acts ++ c.acts
  | _ => p.acts

end Party

structure Turn (ι : Type) where
  who : ι
  deal : Deal
  deriving DecidableEq, Repr

end Crowd

/-- The parties that are there, and the counters they share. -/
structure Crowd (ι : Type) where
  store : Store
  party : ι → Option Crowd.Party

namespace Crowd

variable {ι : Type}

def start (s : Store) : Crowd ι := ⟨s, fun _ => none⟩

def reply? (t : Turn ι) (r : Crowd ι) : Option Reply :=
  match r.party t.who with
  | none => arrive t.deal r.store
  | some p => p.act t.deal r.store

variable [DecidableEq ι]

def settle (t : Turn ι) (r : Crowd ι) (x : Reply) : Crowd ι :=
  { store := x.store
    party := fun j => if j = t.who then some (x.party.note t.deal x.answer) else r.party j }

def step (t : Turn ι) (r : Crowd ι) : Option (Crowd ι) := (r.reply? t).map (r.settle t)

def run (turns : List (Turn ι)) (r : Crowd ι) : Crowd ι :=
  turns.foldl (fun r t => (r.step t).getD r) r

def result? (r : Crowd ι) (i : ι) : Option Completion.Outcome := (r.party i).bind Party.result?

@[simp] theorem run_nil (r : Crowd ι) : r.run [] = r := rfl

@[simp] theorem run_cons (t : Turn ι) (turns : List (Turn ι)) (r : Crowd ι) :
    r.run (t :: turns) = ((r.step t).getD r).run turns := rfl

theorem run_append (a b : List (Turn ι)) (r : Crowd ι) : r.run (a ++ b) = (r.run a).run b := by
  simp [run]

theorem run_concat (turns : List (Turn ι)) (t : Turn ι) (r : Crowd ι) :
    r.run (turns ++ [t]) = ((r.run turns).step t).getD (r.run turns) := by
  rw [run_append, run_cons, run_nil]

end Crowd

end HelperHandoff
