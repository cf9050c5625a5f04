import HelperHandoff.Errno
import HelperHandoff.ExitCode

/-!
Completion counters as the kernel keeps them. A counter holds a small number, can be set, read
and removed by anybody who knows its number, and can be waited for: a wait is admitted once the
value is not zero and leaves it alone, so it is over for every waiter at once. Numbers are given
out in order and never again after a removal; a negative number is nobody's.
-/

set_option autoImplicit false

namespace HelperHandoff.Counter

def ceiling : Int := 32767

def InRange (v : Int32) : Prop := 0 ≤ v.toInt ∧ v.toInt ≤ ceiling

instance (v : Int32) : Decidable (InRange v) := inferInstanceAs (Decidable (_ ∧ _))

/-- How far one wait has come. -/
inductive Stage where
  | calling
  | parked
  | returned (failure : Option Errno)
  deriving DecidableEq, Repr

structure Waiter where
  counter : Int
  stage : Stage
  deriving DecidableEq, Repr

namespace Waiter

/-- The kernel's answer to a call on a counter with the value `v`. -/
def call (v : Option Int32) (w : Waiter) : Waiter :=
  match w.stage, v with
  | .calling, none => { w with stage := .returned (some .invalidArgument) }
  | .calling, some n => { w with stage := if n = 0 then .parked else .returned none }
  | _, _ => w

def interrupt (w : Waiter) : Waiter :=
  if w.stage = .parked then { w with stage := .calling } else w

def release (id : Int) (failure : Option Errno) (w : Waiter) : Waiter :=
  if w.counter = id ∧ w.stage = .parked then { w with stage := .returned failure } else w

end Waiter

structure Store where
  /-- The counters in order of creation; a removed one leaves its place empty. -/
  cells : List (Option Int32)
  waiters : List Waiter
  deriving DecidableEq, Repr

namespace Store

def empty : Store := ⟨[], []⟩

def value? (s : Store) (id : Int) : Option Int32 :=
  if id < 0 then none else s.cells[id.toNat]?.join

def live (s : Store) (id : Int) : Bool := (s.value? id).isSome

def put (s : Store) (id : Int) (cell : Option Int32) : Store :=
  { s with cells := s.cells.set id.toNat cell }

def release (s : Store) (id : Int) (failure : Option Errno) : Store :=
  { s with waiters := s.waiters.map (Waiter.release id failure) }

def create (s : Store) : Int × Store :=
  (s.cells.length, { s with cells := s.cells ++ [some 0] })

def read (s : Store) (id : Int) : Except Errno Int32 :=
  match s.value? id with
  | some v => .ok v
  | none => .error .invalidArgument

/-- Stores a value. One out of range is refused before anybody looks whether the counter is still
there; a value other than zero ends the waits for it. -/
def set (s : Store) (id : Int) (v : Int32) : Option Errno × Store :=
  if id < 0 then (some .invalidArgument, s)
  else if ¬ InRange v then (some .outOfRange, s)
  else if s.live id then
    let t := s.put id (some v)
    (none, if v = 0 then t else t.release id none)
  else (some .invalidArgument, s)

def publish (s : Store) (id : Int) (code : Int32) : Option Errno × Store :=
  match ExitCode.encode? code with
  | none => (some .outOfRange, s)
  | some v => s.set id v

/-- Takes a counter away; whoever waits for it is told so. -/
def remove (s : Store) (id : Int) : Option Errno × Store :=
  if s.live id then (none, (s.put id none).release id (some .identifierRemoved))
  else (some .invalidArgument, s)

def enter (s : Store) (id : Int) : Nat × Store :=
  (s.waiters.length, { s with waiters := s.waiters ++ [⟨id, .calling⟩] })

def call (s : Store) (w : Nat) : Store :=
  match s.waiters[w]? with
  | some t => { s with waiters := s.waiters.set w (t.call (s.value? t.counter)) }
  | none => s

def interrupt (s : Store) (w : Nat) : Store :=
  { s with waiters := s.waiters.modify w Waiter.interrupt }

def stage? (s : Store) (w : Nat) : Option Stage := s.waiters[w]?.map Waiter.stage

@[simp] theorem cells_release (s : Store) (id : Int) (failure : Option Errno) :
    (s.release id failure).cells = s.cells := rfl

@[simp] theorem value?_release (s : Store) (id : Int) (failure : Option Errno) (j : Int) :
    (s.release id failure).value? j = s.value? j := rfl

theorem value?_of_neg (s : Store) {id : Int} (h : id < 0) : s.value? id = none := by
  simp [value?, h]

theorem value?_put_self (s : Store) {id : Int} (h : s.live id) (cell : Option Int32) :
    (s.put id cell).value? id = cell := by
  unfold live value? at h
  by_cases hn : id < 0
  · simp [hn] at h
  · simp only [hn, if_false] at h
    have hlt : id.toNat < s.cells.length := by
      rcases Nat.lt_or_ge id.toNat s.cells.length with hl | hl
      · exact hl
      · simp [List.getElem?_eq_none hl] at h
    simp [value?, put, hn, hlt]

theorem value?_put_ne (s : Store) {id j : Int} (hid : 0 ≤ id) (h : j ≠ id)
    (cell : Option Int32) : (s.put id cell).value? j = s.value? j := by
  unfold value? put
  by_cases hn : j < 0
  · simp [hn]
  · have : id.toNat ≠ j.toNat := by omega
    simp [hn, this]

theorem value?_create (s : Store) : s.create.2.value? s.create.1 = some 0 := by
  simp [create, value?]

end Store

end HelperHandoff.Counter
