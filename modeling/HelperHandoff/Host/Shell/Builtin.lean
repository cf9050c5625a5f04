import HelperHandoff.Host.Shell.Condition
import HelperHandoff.Host.Shell.Expansion
import HelperHandoff.Host.Shell.Format
import HelperHandoff.Host.Shell.Limits
import HelperHandoff.Host.Shell.Reader
import HelperHandoff.Host.Shell.Rights
import HelperHandoff.Host.Shell.Signals

set_option autoImplicit false

namespace HelperHandoff.Host.Shell

/-- What a command needs of the shell that it is part of. -/
structure Engine where
  /-- Runs a script in this process; whether its failure is looked at. -/
  run : Bool → Script → Sh Unit
  text : Bool → String → Sh Nat

namespace Sh

variable {α : Type}

/-! ### Variables -/

def nameAndValue (s : String) : String × Option String :=
  let cs := s.toList
  let name := cs.takeWhile (· != '=')
  (String.ofList name,
    if name.length < cs.length then some (String.ofList (cs.drop (name.length + 1))) else none)

def mark (change : Variable → Variable) (args : List String) : Sh Nat := do
  for a in args do
    let (name, value?) := nameAndValue a
    unless isName name do fail (name ++ ": bad variable name")
    if let some v := value? then setVariable name v
    let v := (← findVariable? name).getD ⟨name, none, false, false⟩
    putVariable (change v)
  return 0

def exportCommand (args : List String) : Sh Nat := do
  mark (fun v => { v with exported := true }) (← operands args)

def readonlyCommand (args : List String) : Sh Nat := do
  mark (fun v => { v with readOnly := true }) (← operands args)

def unsetCommand (args : List String) : Sh Nat := do
  let (options, names) ← splitOptions "vf" "" args
  let functions := (options.getLast?.map (·.1)) == some 'f'
  for name in names do
    if functions then
      changeProcess fun p => { p with functions := p.functions.filter (·.1 != name) }
    else
      unless isName name do fail (name ++ ": bad variable name")
      if (← findVariable? name).any (·.readOnly) then fail (name ++ ": is read only")
      else dropVariable name
  return 0

def localCommand (args : List String) : Sh Nat := do
  match (← process).hidden with
  | [] => fail "not in a function"
  | _ =>
    for a in args do
      let (name, value?) := nameAndValue a
      unless isName name do fail (name ++ ": bad variable name")
      let old ← findVariable? name
      changeProcess fun p =>
        match p.hidden with
        | first :: rest =>
          if first.any (·.1 == name) then p else { p with hidden := ((name, old) :: first) :: rest }
        | [] => p
      if let some v := value? then setVariable name v
    return 0

def restore (saved : List (String × Option Variable)) : Sh Unit := do
  for (name, old?) in saved do
    match old? with
    | some v => putVariable v
    | none => dropVariable name

/-! ### Modes and arguments -/

def longModes : List (String × Char) :=
  [("errexit", 'e'), ("noglob", 'f'), ("noexec", 'n'), ("xtrace", 'x'), ("verbose", 'v'),
   ("noclobber", 'C'), ("allexport", 'a'), ("nounset", 'u')]

def modeOrder : List Char := "uaCvxsnife".toList

def setMode (c : Char) (on : Bool) : Sh Unit := do
  unless modeOrder.contains c do fail ("Illegal option -" ++ String.singleton c)
  changeProcess fun p =>
    let modes := if on then c :: p.modes else p.modes.filter (· != c)
    { p with modes := modeOrder.filter modes.contains }

def setLongMode (name : String) (on : Bool) : Sh Unit := do
  match longModes.lookup name with
  | none => fail ("Illegal option -o " ++ name)
  | some c => setMode c on

def setArgs (args : List String) : Sh Unit := changeProcess fun p => { p with args := args }

def setOptions : List String → Sh Nat
  | [] => return 0
  | "--" :: rest => do
    setArgs rest
    return 0
  | a :: rest => do
    match a.toList with
    | sign :: letters =>
      if sign != '-' && sign != '+' then
        setArgs (a :: rest)
        return 0
      else if letters.getLast? == some 'o' then
        for c in letters.dropLast do
          setMode c (sign == '-')
        match rest with
        | [] => return 0
        | name :: rest =>
          setLongMode name (sign == '-')
          setOptions rest
      else
        for c in letters do
          setMode c (sign == '-')
        setOptions rest
    | [] => do
      setArgs (a :: rest)
      return 0

def shiftCommand (args : List String) : Sh Nat := do
  let n ← match args with
    | [] => pure 1
    | s :: _ => numberArgument s
  if (← process).args.length < n then fail "can\x27t shift that many"
  else
    setArgs ((← process).args.drop n)
    return 0

/-! ### Leaving -/

def statusArgument (args : List String) : Sh Nat := do
  match args with
  | [] => status
  | s :: _ => numberArgument s

/-- Ends the shell. In a trap the status is that from before it unless another is given. -/
def exitCommand (args : List String) : Sh Nat := do
  let n ← match args, (← process).trapStatus? with
    | [], some n => pure n
    | _, _ => statusArgument args
  throw (.exits (n % 256))

def returnCommand (args : List String) : Sh Nat := do
  setStatus (← statusArgument args)
  throw (.returns (!args.isEmpty))

def levels (args : List String) : Sh Nat := do
  let n ← match args with
    | [] => pure 1
    | s :: _ => numberArgument s
  if n == 0 then fail ("Illegal number: 0")
  else return min n (← process).loops

def breakCommand (args : List String) : Sh Nat := do
  let n ← levels args
  if n == 0 then return 0
  else
    setStatus 0
    throw (.leaves n)

def continueCommand (args : List String) : Sh Nat := do
  let n ← levels args
  if n == 0 then return 0
  else
    setStatus 0
    throw (.continues n)

/-! ### The working directory -/

/-- Where a path leads from a directory, with dots taken out by spelling alone. -/
def pathFrom (directory target : String) : String :=
  let start := if target.toList.head? == some '/' then [] else directory.splitOn "/"
  let names := (start ++ target.splitOn "/").foldl (fun found s =>
    if s.isEmpty || s == "." then found else if s == ".." then found.tail else s :: found) []
  "/" ++ "/".intercalate names.reverse

def enter (path : String) : Sh (Option Location) := do
  match ← resolve path with
  | .error _ => return none
  | .ok l => return if (← nodeAt l).any Node.isDirectory then some l else none

def cdCommand (args : List String) : Sh Nat := do
  let args ← operands args
  let back := args.head? == some "-"
  let named ← match args.head? with
    | none => pure ((← value? "HOME").getD "")
    | some "-" => pure ((← value? "OLDPWD").getD "")
    | some p => pure p
  let old := (← process).directory
  let path := pathFrom old named
  match ← enter path with
  | none => fail ("can\x27t cd to " ++ named)
  | some l =>
    changeProcess fun p => { p with cwd := l, directory := path }
    for (name, v) in [("OLDPWD", old), ("PWD", path)] do
      setVariable name v
      if let some u ← findVariable? name then putVariable { u with exported := true }
    if back then out (path ++ "\n")
    return 0

def pwdCommand (_ : List String) : Sh Nat := do
  out ((← process).directory ++ "\n")
  return 0

/-! ### Output and input -/

def printfCommand (args : List String) : Sh Nat := do
  let args ← operands args
  match args with
  | [] => fail "usage: printf format [arg ...]"
  | format :: rest =>
    let r := Format.print format rest
    for c in r.complaints do
      complain c
    out r.text
    return if r.broken then 2 else if r.complaints.isEmpty then 0 else 1

def testCommand (bracket : Bool) (args : List String) : Sh Nat := do
  let closed := args.getLast?.any fun a => a.toList.head? == some ']'
  if bracket && !closed then fail "missing ]"
  else
    match ← (Condition.holds (if bracket then args.dropLast else args)).run with
    | .ok b => return if b then 0 else 1
    | .error f => fail f.text

/-- One line of input as strokes, latest first, and whether it was ended. A backslash joins it to
the next line, or quotes a character. -/
def lineStrokes (raw : Bool) : List Char → List Stroke → Nat → List Stroke × Nat × Bool
  | [], found, n => (found, n, false)
  | '\n' :: _, found, n => (found, n + 1, true)
  | '\\' :: '\n' :: rest, found, n =>
    if raw then (.glyph '\\' .value :: found, n + 2, true) else lineStrokes raw rest found (n + 2)
  | '\\' :: c :: rest, found, n =>
    if raw then lineStrokes raw (c :: rest) (.glyph '\\' .value :: found) (n + 1)
    else lineStrokes raw rest (.glyph c .quoted :: found) (n + 2)
  | '\x00' :: rest, found, n => lineStrokes raw rest found (n + 1)
  | c :: rest, found, n => lineStrokes raw rest (.glyph c .value :: found) (n + 1)

def isSeparator (separators : String) : Stroke → Bool
  | .glyph c .value => separators.contains c
  | _ => false

def isBlankSeparator (separators : String) : Stroke → Bool
  | .glyph c .value => separators.contains c && Splitter.isBlankSeparator c
  | _ => false

def afterSeparator (separators : String) (ss : List Stroke) : List Stroke :=
  let ss := ss.dropWhile (isBlankSeparator separators)
  match ss with
  | s :: rest =>
    if isSeparator separators s then rest.dropWhile (isBlankSeparator separators) else ss
  | [] => []

def strokeText (ss : List Stroke) : String := Glyph.text (Stroke.glyphs none ss)

def assignFields (separators : String) : List String → List Stroke → Sh Unit
  | [], _ => return
  | [name], ss => do
    let field := ss.takeWhile fun s => !isSeparator separators s
    let rest := afterSeparator separators (ss.drop field.length)
    let whole := (ss.reverse.dropWhile (isBlankSeparator separators)).reverse
    setVariable name (strokeText (if rest.isEmpty then field else whole))
  | name :: names, ss => do
    let field := ss.takeWhile fun s => !isSeparator separators s
    setVariable name (strokeText field)
    assignFields separators names (afterSeparator separators (ss.drop field.length))

def strokesOfLine (raw : Bool) : Nat → String → Sh (List Stroke × Bool)
  | 0, _ => throw .exhausted
  | fuel + 1, before => do
    let finished (text : String) : List Stroke × Bool :=
      let (found, _, ended) := lineStrokes raw text.toList [] 0
      (found.reverse, ended)
    match ← readLine 0 true with
    | .error _ | .ok [] => return ((finished before).1, false)
    | .ok b =>
      let text := before ++ Latin1.decode b
      let (found, ended) := finished text
      if ended then return (found, true) else strokesOfLine raw fuel text

def readCommand (args : List String) : Sh Nat := do
  let (options, names) ← splitOptions "r" "p" args
  let raw := options.any (·.1 == 'r')
  if names.isEmpty then fail "arg count"
  else
    for n in names do
      unless isName n do fail (n ++ ": bad variable name")
    let (found, ended) ← strokesOfLine raw mostReadings ""
    let separators ← separators
    let ss := found.dropWhile (isBlankSeparator separators)
    assignFields separators names ss
    return if ended then 0 else 1

/-! ### Texts as scripts -/

def evalCommand (e : Engine) (tested : Bool) (args : List String) : Sh Nat := do
  if args.isEmpty then return 0 else e.text tested (" ".intercalate args)

def openingFault (e : Errno) (creating : Bool) : String :=
  if e = .noEntry || e = .notDirectory then
    (if creating then "Directory nonexistent" else "No such file")
  else describe e

/-- The descriptors of a shell from here on are its own: no other program gets them. -/
def sourceDescriptor : Nat := 10

def dotCommand (e : Engine) (tested : Bool) (args : List String) : Sh Nat := do
  match ← operands args with
  | [] => return 0
  | path :: _ =>
    match ← openForReading path with
    | .error f => fail ("cannot open " ++ path ++ ": " ++ openingFault f false)
    | .ok number =>
      let n ← freeDescriptor sourceDescriptor
      setDescriptor n (some number)
      let b ← readAll n
      setDescriptor n none
      tryCatch (e.text tested (Latin1.decode (b.toOption.getD []))) fun stop => do
        match stop with
        | .returns _ => status
        | _ => throw stop

/-! ### Names of commands -/

def regularCommands : List String :=
  ["[", "cd", "command", "echo", "false", "hash", "kill", "local", "printf", "pwd", "read", "test",
   "true", "type", "ulimit", "umask", "wait"]

def isBuiltin (name : String) : Bool :=
  Reader.specialCommands.contains name || regularCommands.contains name

def programPath? (name : String) : Sh (Option String) := do
  let v ← view
  let cwd := (← process).cwd
  if name.contains '/' then
    return if (v.program cwd (Latin1.encode name)).isOk then some name else none
  else
    let dirs := ((← value? "PATH").getD "").splitOn ":"
    let paths := dirs.map fun d => if d.isEmpty then name else d ++ "/" ++ name
    return paths.find? fun p => (v.program cwd (Latin1.encode p)).isOk

def describeCommands (long : Bool) (names : List String) : Sh Nat := do
  let mut status := 0
  for name in names do
    let say (short more : String) : Sh Unit :=
      out ((if long then name ++ more else short) ++ "\n")
    if Token.keywords.contains name then say name " is a shell keyword"
    else if Reader.specialCommands.contains name then say name " is a special shell builtin"
    else if ((← process).functions.lookup name).isSome then say name " is a shell function"
    else if isBuiltin name then say name " is a shell builtin"
    else
      match ← programPath? name with
      | some path => say path (" is " ++ path)
      | none =>
        if long then out (name ++ ": not found\n")
        status := 127
  return status

def umaskCommand (args : List String) : Sh Nat := do
  match ← operands args with
  | [] =>
    out (Rights.octal (← process).mask ++ "\n")
    return 0
  | w :: _ =>
    match Rights.ofOctal? w.toList with
    | none => fail ("Illegal number: " ++ w)
    | some n =>
      changeProcess fun p => { p with mask := n &&& 0o777 }
      return 0

def builtin? (e : Engine) (tested : Bool) (name : String) : Option (List String → Sh Nat) :=
  match name with
  | ":" | "true" => some fun _ => return 0
  | "false" => some fun _ => return 1
  | "." => some (dotCommand e tested)
  | "break" => some breakCommand
  | "continue" => some continueCommand
  | "eval" => some (evalCommand e tested)
  | "exit" => some exitCommand
  | "export" => some exportCommand
  | "readonly" => some readonlyCommand
  | "return" => some returnCommand
  | "set" => some setOptions
  | "shift" => some shiftCommand
  | "trap" => some trapCommand
  | "unset" => some unsetCommand
  | "[" => some (testCommand true)
  | "test" => some (testCommand false)
  | "hash" => some fun _ => return 0
  | "cd" => some cdCommand
  | "echo" => some fun args => do
    out (Format.echoed true args)
    return 0
  | "kill" => some killCommand
  | "local" => some localCommand
  | "printf" => some printfCommand
  | "pwd" => some pwdCommand
  | "read" => some readCommand
  | "type" => some (describeCommands true)
  | "ulimit" => some ulimitCommand
  | "umask" => some umaskCommand
  | "wait" => some waitCommand
  | _ => none

end Sh

end HelperHandoff.Host.Shell
