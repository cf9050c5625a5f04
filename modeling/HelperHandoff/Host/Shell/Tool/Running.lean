import HelperHandoff.Host.Shell.Condition
import HelperHandoff.Host.Shell.Signals
import HelperHandoff.Host.Shell.Tool.Files
import HelperHandoff.Host.Shell.Tool.Text

set_option autoImplicit false

namespace HelperHandoff.Host.Shell.Tool

def goOn (t : Tool) (command : List String) : Sh Nat := do
  match ← t.replace command with
  | .ok status => return status
  | .error e =>
    t.say (inQuotes (command.head?.getD "") ++ ": " ++ Sh.describe e)
    return if e = .noEntry || e = .notDirectory then 127 else 126

def withEntry (entries : List Bytes) (entry : Bytes) : List Bytes :=
  let name := (Environment.split entry).1
  if entries.any fun e => (Environment.split e).1 == name then
    entries.map fun e => if (Environment.split e).1 == name then entry else e
  else entries ++ [entry]

def env (t : Tool) : Sh Nat :=
  t.withOptions ⟨"i", "u"⟩ true 125 fun o => do
    let birth := (← Sh.process).own.birth
    let kept := if o.has 'i' then [] else birth.filter fun e =>
      (o.value? 'u').all fun n => (Environment.split e).1 != Latin1.encode n
    let assigned := o.operands.takeWhile (·.contains '=')
    let entries := assigned.foldl (fun es a => withEntry es (Latin1.encode a)) kept
    match o.operands.drop assigned.length with
    | [] =>
      Sh.out (unlines (entries.map Latin1.decode))
      return 0
    | command =>
      Sh.changeProcess fun p => { p with own := { p.own with birth := entries } }
      t.goOn command

def printenv (t : Tool) : Sh Nat :=
  t.withOptions ⟨"", ""⟩ true 2 fun o => do
    let entries := (← Sh.process).own.birth
    let found := o.operands.map fun name => Environment.lookup (Latin1.encode name) entries
    Sh.out (unlines ((if o.operands.isEmpty then entries else found.reduceOption).map Latin1.decode))
    return if found.all Option.isSome then 0 else 1

/-- A span of time in microseconds, from seconds as a decimal fraction. -/
def span? (s : String) : Option Nat :=
  match s.splitOn "." with
  | [whole] => (Text.decimal? whole).map (1000000 * ·)
  | [whole, part] =>
    let digits := String.ofList ((part.toList ++ List.replicate 6 '0').take 6)
    match (if whole.isEmpty then some 0 else Text.decimal? whole), Text.decimal? digits with
    | some w, some p => some (1000000 * w + p)
    | _, _ => none
  | _ => none

def sleep (t : Tool) : Sh Nat :=
  t.onOperands ⟨"", ""⟩ fun o => do
    match o.operands.find? fun s => (span? s).isNone with
    | some s => t.misused ("invalid time interval " ++ inQuotes s) 1
    | none =>
      Sh.sleep ((o.operands.filterMap span?).foldl (· + ·) 0)
      return 0

def setsid (t : Tool) : Sh Nat :=
  t.withOptions ⟨"", ""⟩ true 1 fun o => do
    if o.operands.isEmpty then t.misused "no command specified" 1
    else
      Sh.changeProcess fun p => { p with own := { p.own with group := p.own.pid, session := p.own.pid } }
      t.goOn o.operands

def kill (t : Tool) : Sh Nat := do
  let (signal, targets) := match t.args with
    | "-s" :: name :: rest => ((signal? 1 name).getD 15, rest)
    | first :: rest =>
      match first.toList with
      | '-' :: name => ((signal? 1 (String.ofList name)).getD 15, rest)
      | _ => (15, first :: rest)
    | [] => (15, [])
  t.forEach targets fun a => do
    match Text.signed? a with
    | none => return some ("failed to parse argument: " ++ inQuotes a)
    | some n => return if ← Sh.send n signal then none else some ("(" ++ a ++ "): No such process")

def echo (t : Tool) : Sh Nat := do
  Sh.out (Format.echoed false t.args)
  return 0

def printf (t : Tool) : Sh Nat := do
  match t.args with
  | [] => t.misused "missing operand" 1
  | format :: rest =>
    let r := Format.print format rest
    r.complaints.forM t.say
    Sh.out r.text
    return if r.complaints.isEmpty then 0 else 1

def test (bracket : Bool) (t : Tool) : Sh Nat := do
  if bracket && t.args.getLast? != some "]" then
    t.say "missing \x27]\x27"
    return 2
  else
    match ← (Condition.holds (if bracket then t.args.dropLast else t.args)).run with
    | .ok b => return if b then 0 else 1
    | .error f =>
      t.say f.text
      return 2

def constant (status : Nat) (_ : Tool) : Sh Nat := return status

def pwd (_ : Tool) : Sh Nat := do
  Sh.out (Latin1.decode (Location.path (← Sh.process).cwd) ++ "\n")
  return 0

def table : List (String × (Tool → Sh Nat)) :=
  [("[", test true), ("awk", awk), ("basename", basename), ("cat", cat), ("chmod", chmod),
   ("cp", cp), ("dirname", dirname), ("echo", echo), ("env", env), ("false", constant 1),
   ("grep", grep), ("head", head), ("kill", kill), ("ln", ln), ("ls", ls), ("mkdir", mkdir),
   ("mv", mv), ("printenv", printenv), ("printf", printf), ("pwd", pwd), ("readlink", readlink),
   ("rm", rm), ("rmdir", rmdir), ("setsid", setsid), ("sleep", sleep), ("sort", sort),
   ("stat", stat), ("test", test false), ("touch", touch), ("tr", tr), ("true", constant 0),
   ("wc", wc)]

end HelperHandoff.Host.Shell.Tool
