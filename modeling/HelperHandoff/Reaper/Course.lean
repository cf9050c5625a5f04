import HelperHandoff.Reaper

/-!
The watch over helpers in the course of events. Between two turns of the watch somebody hands over
another helper or ends the handing over, and what the system says of a child changes: the child
ends, with any status, or somebody else waits for it, or the question after it fails for some other
reason. A pass asks after each helper once, so what happens to a helper while a pass is under way
can be told as having happened before the pass or after it.
-/

set_option autoImplicit false

namespace HelperHandoff.Reaper

inductive Event where
  | handOver (h : SpawnedHelper)
  | close
  | becomes (pid : Nat) (answer : Poll)
  | turn
  | pass
  deriving DecidableEq, Repr

def Event.asks : Event → Bool
  | .turn | .pass => true
  | _ => false

/-- The helpers that are handed over, oldest first; after the end of it nobody can. -/
def handedOver : List Event → List SpawnedHelper
  | .handOver h :: rest => h :: handedOver rest
  | .close :: _ | [] => []
  | _ :: rest => handedOver rest

structure Course where
  poll : Nat → Poll
  watch : ReaperWatch

namespace Course

def start : Course := ⟨fun _ => .running, .start⟩

def step (c : Course) : Event → Course
  | .handOver h => { c with watch := c.watch.handOver h }
  | .close => { c with watch := c.watch.close }
  | .becomes pid answer => { c with poll := fun n => if n = pid then answer else c.poll n }
  | .turn => { c with watch := c.watch.turn c.poll }
  | .pass => { c with watch := (c.watch.collect c.poll).2 }

def run (events : List Event) : Course := events.foldl step start

@[simp] theorem run_nil : run [] = start := rfl

@[simp] theorem run_concat (events : List Event) (e : Event) :
    run (events ++ [e]) = (run events).step e := by
  simp [run]

end Course

end HelperHandoff.Reaper
