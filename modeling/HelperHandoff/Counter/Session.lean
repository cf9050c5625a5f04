import HelperHandoff.Completion

set_option autoImplicit false

namespace HelperHandoff.Counter

open Completion (Hand Outcome Race Turn)

structure Slot where
  counter : Int
  guard : Option Guard
  waiter : Option Nat
  deriving DecidableEq, Repr

structure Session where
  store : Store
  slots : List Slot
  deriving DecidableEq, Repr

inductive Step where
  | create
  | foreign (id : Int)
  | value (slot : Nat)
  | hand (slot : Nat) (h : Hand)
  | destroy (slot : Nat)
  | drop (slot : Nat)
  | wait (slot : Nat)
  | interrupt (slot : Nat)
  | join (slot : Nat)
  /-- The owner waits for the exit code; another thread may act ten milliseconds later. -/
  | complete (slot timeoutMs : Nat) (later : Option Hand)

inductive Answer where
  | done
  | number (n : Int)
  | failed (e : Errno)
  | noOwner
  | blocked
  | stillWaiting
  | notWaiting
  | completed (outcome : Option Outcome) (reply : Option (Option Errno))

def Answer.ofFailure : Option Errno → Answer
  | none => .done
  | some e => .failed e

structure Outcome where
  answer : Answer
  acts : List Act
  session : Session

namespace Session

def empty : Session := ⟨.empty, []⟩

def state (s : Session) : List (Option Int32) := s.slots.map fun t => s.store.value? t.counter

def setSlot (s : Session) (i : Nat) (t : Slot) : Session := { s with slots := s.slots.set i t }

/-- The turns of a completion that another thread may disturb after ten milliseconds. By then a
client that has something to receive has returned, and so has one whose deadline was earlier; a
deadline of zero passes before anything else. -/
def turns (timeoutMs : Nat) (later : Option Hand) : List Turn :=
  let hands := later.toList.map .other
  if timeoutMs = 0 then .own .deadline :: Race.closing ++ hands
  else if timeoutMs < 10 then Race.closing ++ hands
  else Race.prompt ++ hands ++ Race.closing

def complete (s : Session) (i : Nat) (t : Slot) (g : Guard) (timeoutMs : Nat)
    (later : Option Hand) : Outcome :=
  let r := (Race.start g timeoutMs s.store).run (turns timeoutMs later)
  let (dropped, store) := r.client.guard.drop r.store
  { answer := .completed r.result? r.replies.head?
    acts := r.client.acts ++ dropped
    session := { s with store := store }.setSlot i { t with guard := none } }

def onSlot (s : Session) (i : Nat) (t : Slot) : Step → Outcome
  | .value _ =>
    match s.store.read t.counter with
    | .ok v => ⟨.number v.toInt, [], s⟩
    | .error e => ⟨.failed e, [], s⟩
  | .hand _ h =>
    let (failure, store) := h.act t.counter s.store
    ⟨.ofFailure failure, [], { s with store := store }⟩
  | .destroy _ =>
    match t.guard with
    | none => ⟨.noOwner, [], s⟩
    | some g =>
      let r := g.destroy s.store
      ⟨.ofFailure r.failure, r.acts,
        { s with store := r.store }.setSlot i { t with guard := some r.guard }⟩
  | .drop _ =>
    match t.guard with
    | none => ⟨.done, [], s⟩
    | some g =>
      let (acts, store) := g.drop s.store
      ⟨.done, acts, { s with store := store }.setSlot i { t with guard := none }⟩
  | .wait _ =>
    let (w, store) := s.store.enter t.counter
    let store := store.call w
    match store.stage? w with
    | some (.returned failure) => ⟨.ofFailure failure, [], { s with store := store }⟩
    | _ => ⟨.blocked, [], { s with store := store }.setSlot i { t with waiter := some w }⟩
  | .interrupt _ =>
    match t.waiter with
    | none => ⟨.notWaiting, [], s⟩
    | some w =>
      if s.store.stage? w = some .parked then
        ⟨.stillWaiting, [], { s with store := (s.store.interrupt w).call w }⟩
      else ⟨.notWaiting, [], s⟩
  | .join _ =>
    match t.waiter.bind s.store.stage? with
    | some (.returned failure) =>
      ⟨.ofFailure failure, [], s.setSlot i { t with waiter := none }⟩
    | some _ => ⟨.blocked, [], s⟩
    | none => ⟨.notWaiting, [], s⟩
  | .complete _ timeoutMs later =>
    match t.guard with
    | none => ⟨.noOwner, [], s⟩
    | some g => s.complete i t g timeoutMs later
  | .create | .foreign _ => ⟨.done, [], s⟩

def Step.slot? : Step → Option Nat
  | .create | .foreign _ => none
  | .value i | .hand i _ | .destroy i | .drop i | .wait i | .interrupt i | .join i
  | .complete i _ _ => some i

def step (s : Session) : Step → Outcome
  | .create =>
    let (g, acts, store) := Guard.create s.store
    ⟨.done, acts, ⟨store, s.slots ++ [⟨g.counter, some g, none⟩]⟩⟩
  | .foreign id => ⟨.done, [], { s with slots := s.slots ++ [⟨id, none, none⟩] }⟩
  | st =>
    match Step.slot? st with
    | none => ⟨.noOwner, [], s⟩
    | some i =>
      match s.slots[i]? with
      | none => ⟨.noOwner, [], s⟩
      | some t => s.onSlot i t st

def run (s : Session) : List Step → List Outcome
  | [] => []
  | st :: rest => s.step st :: (s.step st).session.run rest

end Session

end HelperHandoff.Counter
