import HelperHandoff.Bytes
import HelperHandoff.ExitStatus
import HelperHandoff.Errno

/-!
Collecting helpers that have ended. Helpers are handed over through a queue; the watch takes one
at a time into its list and asks after each turn who has ended. One that has ended is reported
once and forgotten; one that somebody else has already waited for is forgotten without a report.
-/

set_option autoImplicit false

namespace HelperHandoff

structure SpawnedHelper where
  pid : Nat
  socket : Bytes
  deriving DecidableEq, Repr

namespace Reaper

inductive Poll where
  | ended (status : ExitStatus)
  | running
  | failed (error : Errno)
  deriving DecidableEq, Repr

structure Report where
  pid : Nat
  status : ExitStatus
  socket : Bytes
  deriving DecidableEq, Repr

/-- The child stays in the list: it runs, or the question failed for another reason than that
there is no such child. -/
def Poll.keeps : Poll → Bool
  | .ended _ => false
  | .running => true
  | .failed e => e != Errno.noChild

def reportOf (h : SpawnedHelper) : Poll → Option Report
  | .ended status => some ⟨h.pid, status, h.socket⟩
  | _ => none

def staying (poll : Nat → Poll) (held : List SpawnedHelper) : List SpawnedHelper :=
  held.filter fun h => (poll h.pid).keeps

def leaving (poll : Nat → Poll) (held : List SpawnedHelper) : List SpawnedHelper :=
  held.filter fun h => !(poll h.pid).keeps

def reports (poll : Nat → Poll) (held : List SpawnedHelper) : List Report :=
  held.filterMap fun h => reportOf h (poll h.pid)

end Reaper

/-- The watch over helpers. -/
structure ReaperWatch where
  queue : List SpawnedHelper
  isOpen : Bool
  held : List SpawnedHelper
  collected : List SpawnedHelper
  reports : List Reaper.Report
  finished : Bool
  deriving DecidableEq, Repr

namespace ReaperWatch

open Reaper (Poll)

def start : ReaperWatch := ⟨[], true, [], [], [], false⟩

def handOver (h : SpawnedHelper) (w : ReaperWatch) : ReaperWatch :=
  if w.isOpen then { w with queue := w.queue ++ [h] } else w

def close (w : ReaperWatch) : ReaperWatch := { w with isOpen := false }

def sweep (poll : Nat → Poll) (w : ReaperWatch) : ReaperWatch :=
  { w with
    held := Reaper.staying poll w.held
    collected := w.collected ++ Reaper.leaving poll w.held
    reports := w.reports ++ Reaper.reports poll w.held }

def collect (poll : Nat → Poll) (w : ReaperWatch) : Nat × ReaperWatch :=
  let swept := w.sweep poll
  (swept.held.length, swept)

/-- One turn: takes the next helper if there is one, then sweeps. The watch ends once nobody can
hand anything over and nothing is held. -/
def turn (poll : Nat → Poll) (w : ReaperWatch) : ReaperWatch :=
  if w.finished then w
  else
    match w.queue with
    | h :: rest => { w with queue := rest, held := w.held ++ [h] }.sweep poll
    | [] =>
      let (left, swept) := w.collect poll
      if w.isOpen then swept else { swept with finished := left = 0 }

end ReaperWatch

end HelperHandoff
