import HelperHandoff.Host.Shell.Jobs

set_option autoImplicit false

namespace HelperHandoff.Host.Shell

/-- A program as a script calls it. -/
structure Tool where
  name : String
  args : List String
  /-- Goes on as another command, unless that cannot be run. -/
  replace : List String → Sh (Except Errno Nat)

namespace Tool

def inQuotes (s : String) : String := "\x27" ++ s ++ "\x27"

def say (t : Tool) (text : String) : Sh Unit := Sh.err (t.name ++ ": " ++ text ++ "\n")

def misused (t : Tool) (text : String) (status : Nat) : Sh Nat := do
  t.say text
  Sh.err ("Try \x27" ++ t.name ++ " --help\x27 for more information.\n")
  return status

/-! ### Options -/

structure Known where
  plain : String
  valued : String

structure Options where
  given : List (Char × String)
  operands : List String

namespace Options

def has (o : Options) (c : Char) : Bool := o.given.any (·.1 == c)

def value? (o : Options) (c : Char) : Option String :=
  (o.given.reverse.find? (·.1 == c)).map (·.2)

end Options

def letters (k : Known) : List Char → List String →
    Except String (List (Char × String) × List String)
  | [], rest => .ok ([], rest)
  | c :: cs, rest =>
    if k.valued.contains c then
      match cs, rest with
      | [], v :: rest => .ok ([(c, v)], rest)
      | [], [] => .error ("option requires an argument -- " ++ inQuotes (String.singleton c))
      | cs, rest => .ok ([(c, String.ofList cs)], rest)
    else if k.plain.contains c then
      (letters k cs rest).map fun (more, rest) => ((c, "") :: more, rest)
    else .error ("invalid option -- " ++ inQuotes (String.singleton c))

/-- Options may stand between operands unless they have to come first. -/
def scan (k : Known) (first : Bool) : Nat → List String → Except String Options
  | 0, _ | _ + 1, [] => .ok ⟨[], []⟩
  | fuel + 1, w :: rest =>
    match w.toList with
    | ['-', '-'] => .ok ⟨[], rest⟩
    | '-' :: c :: cs =>
      match letters k (c :: cs) rest with
      | .error e => .error e
      | .ok (found, rest) =>
        (scan k first fuel rest).map fun o => { o with given := found ++ o.given }
    | _ =>
      if first then .ok ⟨[], w :: rest⟩
      else (scan k first fuel rest).map fun o => { o with operands := w :: o.operands }

def withOptions (t : Tool) (k : Known) (first : Bool) (bad : Nat) (run : Options → Sh Nat) :
    Sh Nat := do
  match scan k first (t.args.length + 1) t.args with
  | .ok o => run o
  | .error e => t.misused e bad

def onOperands (t : Tool) (k : Known) (run : Options → Sh Nat) : Sh Nat :=
  t.withOptions k false 1 fun o =>
    if o.operands.isEmpty then t.misused "missing operand" 1 else run o

/-- Does something for each operand, and tells what goes wrong; one that goes wrong is enough for
the status. -/
def forEach (t : Tool) {α : Type} (xs : List α) (use : α → Sh (Option String)) : Sh Nat := do
  let mut status := 0
  for x in xs do
    if let some trouble ← use x then
      t.say trouble
      status := 1
  return status

/-! ### Inputs -/

def withInput {α : Type} (operand : String) (use : Nat → Sh (Except Errno α)) :
    Sh (Except Errno α) := do
  if operand == "-" then use 0
  else
    match ← Sh.openForReading operand with
    | .error e => return .error e
    | .ok number =>
      let n ← Sh.freeDescriptor 3
      Sh.setDescriptor n (some number)
      let found ← use n
      Sh.setDescriptor n none
      return found

def Options.inputs (o : Options) : List String := if o.operands.isEmpty then ["-"] else o.operands

def unread (operand : String) (e : Errno) : String := operand ++ ": " ++ Sh.describe e

def allInput (t : Tool) (o : Options) (bad : Nat) : Sh (String × Nat) := do
  let mut found := ""
  let mut status := 0
  for operand in o.inputs do
    match ← withInput operand Sh.readAll with
    | .ok b => found := found ++ Latin1.decode b
    | .error e =>
      t.say (unread operand e)
      status := bad
  return (found, status)

def linesOf (s : String) : List String :=
  let parts := s.splitOn "\n"
  if parts.getLast? == some "" then parts.dropLast else parts

def unlines (ls : List String) : String := String.join (ls.map (· ++ "\n"))

end Tool

end HelperHandoff.Host.Shell
