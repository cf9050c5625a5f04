import HelperHandoff.Host.Shell.Jobs

set_option autoImplicit false

namespace HelperHandoff.Host.Shell

def lastSignal : Nat := 64

def signalName (n : Nat) : String :=
  if n == 0 then "EXIT"
  else
    match ExitStatus.signalNames.lookup n with
    | some name => String.ofList (name.toList.drop 3)
    | none => toString n

def signal? (first : Nat) (s : String) : Option Nat :=
  match Text.decimal? s with
  | some n => if n ≤ lastSignal then some n else none
  | none => ((List.range (lastSignal + 1)).drop first).find? fun n => signalName n == s.toUpper

namespace Sh

/-! ### Sending -/

def receive (signal : Nat) : Sh Unit := do
  let p ← process
  match if signal == 0 then .nothing else p.effect signal with
  | .nothing => return
  | .noted => changeProcess (·.note signal)
  | .kills => throw (.killed signal)

/-- Sends a signal to a process, or to a group of them if the number says so; whether there was
somebody to get it. A process that has ended is there until its parent has asked for it. -/
def send (target : Int) (signal : Nat) : Sh Bool := do
  let own := (← process).own
  let w ← world
  let group? : Option Nat :=
    if target == 0 then some own.group else if target < -1 then some (-target).toNat else none
  if target == (own.pid : Int) then
    receive signal
    return true
  else if 0 < target then
    let pid := target.toNat
    if w.others.any (·.own.pid == pid) then
      unless signal == 0 do post pid signal
      return true
    else return w.endings.any (·.pid == pid) || pid == 1
  else
    let inGroup (f : Face) : Bool := group?.all (· == f.group)
    let reached := w.others.filter fun p => inGroup p.own
    unless signal == 0 do
      for p in reached do
        post p.own.pid signal
    if group?.isSome && inGroup own then
      receive signal
      return true
    else return !reached.isEmpty

def killUsage : String := "Usage: kill [-s sigspec | -signum | -sigspec] pid..."

def killTargets (signal : Nat) (targets : List String) : Sh Nat := do
  let mut status := 0
  for t in targets do
    let sent ← match t.toList with
      | '-' :: cs => do send (-(← numberArgument (String.ofList cs) : Int)) signal
      | _ => do send (← numberArgument t : Int) signal
    unless sent do
      complain "No such process\n"
      status := 1
  return status

def killCommand (args : List String) : Sh Nat := do
  let direct? := (args.head?.map String.toList).bind fun cs =>
    match cs with
    | '-' :: name => signal? 1 (String.ofList name)
    | _ => none
  match direct? with
  | some n => if args.tail.isEmpty then fail killUsage else killTargets n args.tail
  | none =>
    let (options, targets) ← splitOptions "" "s" args
    let named ← options.mapM fun o => do
      match signal? 1 o.2 with
      | some n => pure n
      | none => fail ("invalid signal number or name: " ++ o.2)
    if targets.isEmpty then fail killUsage
    else killTargets (named.getLast?.getD 15) targets

/-! ### Traps -/

def trapCommand (args : List String) : Sh Nat := do
  let args ← operands args
  match args with
  | [] => return 0
  | action :: names =>
    let (action?, names) : Option String × List String :=
      if names.isEmpty then (none, [action])
      else if action == "-" then (none, names)
      else if (signal? lastSignal action).isSome && action.toList.all Char.isDigit then (none, args)
      else (some action, names)
    for name in names do
      match signal? 0 name with
      | none =>
        err ("trap: " ++ name ++ ": bad trap\n")
        return 1
      | some n =>
        changeProcess fun p =>
          let others := p.traps.filter (·.1 != n)
          { p with
            traps := match action? with
              | none => others
              | some a => (n, a) :: others }
    return 0

end Sh

end HelperHandoff.Host.Shell
