import HelperHandoff.Host.Shell.Builtin

set_option autoImplicit false

namespace HelperHandoff.Host.Shell.Run

open Sh

def attempt {α : Type} (body : Sh α) : Sh (Except Stop α) :=
  tryCatch (do return .ok (← body)) fun stop => return .error stop

def stopOf (body : Sh Unit) : Sh (Option Stop) :=
  tryCatch (do
    body
    return none) fun stop => return some stop

def setLast (b : Bool) : Sh Unit := changeProcess fun p => { p with last := b }

/-! ### Ends of processes -/

def traps (e : Engine) : Nat → Sh Unit
  | 0 => return
  | fuel + 1 => do
    let p ← process
    match (p.pending.mergeSort fun a b => a ≤ b).head? with
    | none => return
    | some n =>
      changeProcess fun p => { p with pending := p.pending.filter (· != n) }
      match p.traps.lookup n with
      | none => traps e fuel
      | some action =>
        let saved ← process
        changeProcess fun p =>
          { p with last := false, trapStatus? := p.trapStatus? <|> some p.status }
        let ended ← attempt (e.text false action)
        changeProcess fun p => { p with last := saved.last, trapStatus? := saved.trapStatus? }
        match ended with
        | .error (.returns true) => throw (.returns true)
        | .error stop =>
          setStatus saved.status
          throw stop
        | .ok _ =>
          setStatus saved.status
          traps e fuel

def mostTraps : Nat := 100

def runTraps (e : Engine) : Sh Unit := do
  unless (← process).pending.isEmpty do traps e mostTraps

def exited (n : Nat) : ExitStatus := .exited (UInt8.ofNat n)

def outcome (e : Engine) (body : Sh Unit) : Sh ExitStatus := do
  match ← stopOf body with
  | some (.killed n) => return .killed n
  | some .exhausted => throw .exhausted
  | stop? =>
    match stop? with
    | some (.exits n) => setStatus n
    | some .fault => setStatus 2
    | _ => pure ()
    let saved ← status
    match (← process).traps.lookup 0 with
    | none => return exited saved
    | some action =>
      changeProcess fun p =>
        { p with traps := p.traps.filter (·.1 != 0), last := false, trapStatus? := some saved }
      match ← stopOf (do let _ ← e.text false action) with
      | some (.exits n) => return exited n
      | some (.killed n) => return .killed n
      | some .fault => return exited 2
      | some .exhausted => throw .exhausted
      | some (.returns _) =>
        let given ← status
        return exited (if given != 0 && (← hasMode 'e') then given else saved)
      | _ => return exited saved

/-! ### Copies of the shell -/

def newNumber : Sh Nat := do
  let n := (← host).lastPid + 1
  changeHost fun h => { h with lastPid := n }
  return n

def likeness (p : Process) (pid : Nat) : Process :=
  { p with
    own := { p.own with pid := pid, parent := p.own.pid }
    jobs := []
    pending := []
    outputFault? := none }

/-- A copy of the shell. Traps are gone in it, but what was ignored stays ignored. -/
def copyOf (p : Process) (pid : Nat) : Process :=
  let child := (likeness p pid).withoutTraps
  { child with
    shell? := some (p.shell?.getD p.own.pid)
    last := true
    own := { child.own with
      descriptors := child.own.descriptors.filter (·.1 != sourceDescriptor) } }

def forked (change : Process → Process) (tested : Bool) (rs : List Redirection) (s : Script) :
    Sh Nat := do
  forgetJob
  let pid ← newNumber
  fork ⟨change (copyOf (← process) pid), .script tested rs s⟩
  return pid

def foreground (pids : List Nat) : Sh Nat := do return statusFor (← awaitAll pids)

def unattended (p : Process) : Process :=
  { p with immune := (p.immune ++ [2, 3]).eraseDups }

/-- Has the parts of a pipeline begin. The first one reads from `input?` if that is given, which
the shell may keep open under a descriptor of its own so far. -/
def startAll (change : Process → Process) (tested : Bool) (input? : Option (Option Nat × Nat)) :
    List Script → Sh (List Nat)
  | [] => return []
  | s :: rest => do
    let close (p : Process) : Process :=
      match input? with
      | some (some n, _) => p.setDescriptor n none
      | _ => p
    let reading (p : Process) : Process :=
      match input? with
      | some (_, file) => (close p).setDescriptor 0 (some file)
      | none => p
    let closing : Sh Unit := do
      changeProcess close
      stir
    match rest with
    | [] =>
      let pid ← forked (fun p => change (reading p)) tested [] s
      closing
      return [pid]
    | _ =>
      let (input, output) ← newPipe
      let pid ← forked (fun p => (change (reading p)).setDescriptor 1 (some output)) tested [] s
      closing
      let n ← freeDescriptor 0
      setDescriptor n (some input)
      let more ← startAll change tested (some (some n, input)) rest
      return pid :: more

def background (s : Script) : Sh Unit := do
  let input ← newFile ⟨.device "null", 0, false, true, false⟩
  let pids ← match s with
    | .pipeline parts => startAll unattended false (some (none, input)) parts
    | _ => do pure [← forked (fun p => (unattended p).setDescriptor 0 (some input)) false [] s]
  addJob pids
  setStatus 0

def capture (s : Script) : Sh Bytes := do
  let (input, output) ← newPipe
  let n ← freeDescriptor 0
  setDescriptor n (some input)
  let pid ← forked (fun p => (p.setDescriptor n none).setDescriptor 1 (some output)) false [] s
  let b ← readAll n
  setDescriptor n none
  let status ← foreground [pid]
  changeProcess fun p => { p with outputStatus := status }
  return b.toOption.getD []

end HelperHandoff.Host.Shell.Run
