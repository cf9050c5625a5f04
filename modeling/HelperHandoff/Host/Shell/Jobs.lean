import HelperHandoff.Host.Shell.Arguments

set_option autoImplicit false

namespace HelperHandoff.Host.Shell

def statusFor : ExitStatus → Nat
  | .exited status => status.toNat
  | .killed signal => 128 + signal

namespace Job

def noted (endings : List Ending) (j : Job) : Job :=
  { j with members := j.members.map fun (pid, how?) =>
      (pid, how?.orElse fun _ => (endings.find? (·.pid == pid)).map (·.how)) }

def missing (j : Job) : List Nat := (j.members.filter (·.2.isNone)).map (·.1)

end Job

namespace Sh

/-! ### Ends of children -/

def takeEndings : Sh (List Ending) := do
  let pid := (← process).own.pid
  let (mine, others) := (← world).endings.partition (·.parent == pid)
  unless mine.isEmpty do
    changeWorld fun w => { w with endings := others }
    changeProcess fun p => { p with jobs := p.jobs.map (·.noted mine) }
  return mine

/-- Waits until some children have ended, and gives the ends of all that have in the meantime; and
whether it was disturbed before. -/
def collect (disturbed : Bool) : Nat → List Nat → List Ending → Sh (List Ending × Bool)
  | 0, _, _ => throw .exhausted
  | fuel + 1, missing, found => do
    if missing.isEmpty then return (found, false)
    else
      let pid := (← process).own.pid
      let s ← get
      if s.world.endings.any (·.parent == pid) then
        let mine ← takeEndings
        collect disturbed fuel (missing.filter fun n => !mine.any (·.pid == n)) (found ++ mine)
      else if disturbed && !s.process.pending.isEmpty then return (found, true)
      else
        await (fun s => s.world.endings.any (·.parent == pid) ||
          disturbed && !s.process.pending.isEmpty) none
        collect disturbed fuel missing found

def awaitAll (pids : List Nat) : Sh ExitStatus := do
  let (found, _) ← collect false mostReadings pids []
  match pids.getLast? with
  | some pid => return ((found.find? (·.pid == pid)).map (·.how)).getD (.exited 127)
  | none => return .exited 0

/-! ### Jobs -/

def forgetJob : Sh Unit :=
  changeProcess fun p => { p with jobs := p.jobs.eraseP (·.waitedFor) }

def addJob (pids : List Nat) : Sh Unit :=
  changeProcess fun p =>
    { p with
      background? := pids.getLast?
      jobs := ⟨pids.map (·, none), false⟩ :: p.jobs }

def waitCommand (args : List String) : Sh Nat := do
  let args ← operands args
  let _ ← takeEndings
  let waited (pass : Job → Bool) : Sh Unit :=
    changeProcess fun p =>
      { p with jobs := p.jobs.map fun j => if pass j then { j with waitedFor := true } else j }
  let disturbance : Sh Nat := do return 128 + ((← process).pending.getLast?).getD 0
  if args.isEmpty then
    let missing := (← process).jobs.flatMap Job.missing
    let (_, early) ← collect true mostReadings missing []
    if early then disturbance
    else
      waited fun _ => true
      return 0
  else
    let mut status := 0
    for a in args do
      let pid ← numberArgument a
      match (← process).jobs.find? (·.pid == pid) with
      | none => status := 127
      | some j =>
        let (_, early) ← collect true mostReadings j.missing []
        if early then return ← disturbance
        let how? := ((← process).jobs.find? (·.pid == pid)).bind Job.ending?
        status := (how?.map statusFor).getD 127
        waited (·.pid == pid)
    return status

end Sh

end HelperHandoff.Host.Shell
