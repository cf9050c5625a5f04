import HelperHandoff.Host.Probe
import HelperHandoff.Host.Shell.Children
import HelperHandoff.Host.Shell.Machine
import HelperHandoff.Host.Shell.Tool.Running

/-!
Running scripts. A script is run for what it does to the process it is run in; parts of it run in
processes of their own, which begin with a task and are on their own from then on.

`Run.within` says what each construct does in terms of an engine for what stands in it, and
`Run.engine` ties the knot with a bound on the depth.
-/

set_option autoImplicit false

namespace HelperHandoff.Host.Shell

/-- What programs do that are neither shells nor tools: such a program by its place, how it is
started, the number of its process, and the host. -/
abbrev Launcher := Location → Program → Started → Nat → Host → Course

namespace Run

open Sh

/-! ### Texts -/

def lines (e : Engine) (tested : Bool) : Nat → Source → Nat → Sh Nat
  | 0, _, _ => throw .exhausted
  | fuel + 1, s, found => do
    match Reader.line? s with
    | .error f =>
      changeProcess fun p => { p with line := f.line }
      fail ("Syntax error: " ++ f.text)
    | .ok none => return found
    | .ok (some (.nothing, after)) => lines e tested fuel after found
    | .ok (some (script, after)) =>
      e.run tested script
      lines e tested fuel after (← status)

def text (e : Engine) (tested : Bool) (s : String) : Sh Nat :=
  lines e tested (s.length + 2) (Reader.start s) 0

/-! ### Redirections -/

structure Redirect where
  descriptor : Nat
  direction : Direction
  target : String

def redirectOf : Redirection → Sh Redirect
  | .mk n direction target => do
    let t ← textOf capture target
    match direction, t.toList with
    | .copy, ['-'] => return ⟨n, direction, t⟩
    | .copy, [c] =>
      if c.isDigit then return ⟨n, direction, t⟩ else fail "Syntax error: Bad fd number"
    | .copy, _ => fail "Syntax error: Bad fd number"
    | _, _ => return ⟨n, direction, t⟩

/-- Where a redirection has a descriptor lead: to something that has been opened for it, where
another descriptor leads, or nowhere. -/
inductive Lead where
  | opened (file : Nat)
  | shared (descriptor : Nat)
  | nowhere

def leadOf : Redirect → Sh Lead
  | ⟨_, direction, t⟩ => do
    let use (result : Except Errno Nat) (verb : String) (creating : Bool) : Sh Lead := do
      match result with
      | .ok file => return .opened file
      | .error f => fail ("cannot " ++ verb ++ " " ++ t ++ ": " ++ openingFault f creating)
    match direction with
    | .input => use (← openForReading t) "open" false
    | .output always =>
      if !always && (← hasMode 'C') && (← node? t).any Node.isFile then
        fail ("cannot create " ++ t ++ ": File exists")
      else use (← openForWriting t false false false) "create" true
    | .append => use (← openForWriting t true true false) "create" true
    | .update => use (← openForWriting t true false true) "create" true
    | .text => return .opened (← newText (Latin1.encode t))
    | .copy => return if t == "-" then .nowhere else .shared ((Text.decimal? t).getD 0)

def follow (r : Redirect) : Lead → Sh Unit
  | .opened file => setDescriptor r.descriptor (some file)
  | .nowhere => setDescriptor r.descriptor none
  | .shared n => do
    match ← descriptor? n with
    | some file => setDescriptor r.descriptor (some file)
    | none => fail (r.target ++ ": " ++ describe .badDescriptor)

def Redirect.isIdle (r : Redirect) : Bool :=
  r.direction == .copy && r.target == toString r.descriptor

def Redirect.settled (r : Redirect) : Redirection :=
  .mk r.descriptor r.direction [.text r.target true]

def redirectsOf (rs : List Redirection) : Sh (List Redirect) := do
  return (← rs.mapM redirectOf).filter (!·.isIdle)

def redirectAll (rs : List Redirection) : Sh Unit := do
  (← redirectsOf rs).forM fun r => do follow r (← leadOf r)

/-- A descriptor that is redirected, what it led to before, and the number under which that is kept
open meanwhile. -/
structure Kept where
  descriptor : Nat
  file? : Option Nat
  copy? : Option Nat

def keepOpen (n : Nat) : Sh Kept := do
  match ← descriptor? n with
  | none => return ⟨n, none, none⟩
  | some file =>
    let free ← freeDescriptor sourceDescriptor
    setDescriptor free (some file)
    return ⟨n, some file, some free⟩

/-- Follows redirections, and keeps open first what their descriptors lead to. Gives back what has
been kept, and whether all went well. -/
def redirectFor : List Kept → List Redirect → Sh (List Kept × Bool)
  | kept, [] => return (kept, true)
  | kept, r :: rs => do
    match ← attempt (leadOf r) with
    | .error .fault => return (kept, false)
    | .error stop => throw stop
    | .ok lead =>
      let known := kept.any (·.descriptor == r.descriptor)
      let kept ← if known then pure kept else do pure ((← keepOpen r.descriptor) :: kept)
      match ← stopOf (follow r lead) with
      | some .fault => return (kept, false)
      | some stop => throw stop
      | none => redirectFor kept rs

def dropCopies (kept : List Kept) : Sh Unit :=
  kept.forM fun k => do
    if let some copy := k.copy? then setDescriptor copy none

def takeBack (kept : List Kept) : Sh Unit := do
  kept.forM fun k => setDescriptor k.descriptor k.file?
  dropCopies kept

def redirected (rs : List Redirection) (body : Sh Unit) : Sh Bool := do
  let found ← redirectsOf rs
  let (kept, well) ← redirectFor [] found
  if !well then
    takeBack kept
    return false
  else
    match ← stopOf body with
    | none =>
      takeBack kept
      return true
    | some stop =>
      takeBack kept
      throw stop

def redirectShell (rs : List Redirection) : Sh Unit := do
  let found ← redirectsOf rs
  let (kept, well) ← redirectFor [] found
  if well then dropCopies kept
  else
    takeBack kept
    setStatus 2
    throw .fault

/-! ### Shells and programs -/

/-- The path that a shell takes its working directory by: the one it is told, if it leads there. -/
def startDirectory (v : View) (birth : List Bytes) (cwd : Location) : String :=
  let told := (Environment.lookup (Bytes.ofString "PWD") birth).getD []
  if told.head? == some Bytes.slash && (v.resolve [] told).toOption == some cwd then
    Latin1.decode told
  else Latin1.decode (Location.path cwd)

def standardPath : String := "/usr/local/sbin:/usr/local/bin:/usr/sbin:/usr/bin:/sbin:/bin"

def startVariables (birth : List Bytes) (directory : String) (parent : Nat) : List Variable :=
  let own : List Variable :=
    [⟨"IFS", some " \t\n", false, false⟩, ⟨"OPTIND", some "1", false, false⟩,
     ⟨"PATH", some standardPath, false, false⟩,
     ⟨"PPID", some (toString parent), false, false⟩, ⟨"PS1", some "# ", false, false⟩,
     ⟨"PS2", some "> ", false, false⟩, ⟨"PS4", some "+ ", false, false⟩]
  let given := (Environment.pairs birth).filterMap fun (n, v) =>
    let name := Latin1.decode n
    if isName name then some ⟨name, some (Latin1.decode v), true, false⟩ else none
  let put (vs : List Variable) (v : Variable) : List Variable :=
    if vs.any (·.name == v.name) then vs.map fun u => if u.name == v.name then v else u
    else vs ++ [v]
  put (given.foldl put own) ⟨"PWD", some directory, true, false⟩

def freshShell (v : View) (p : Process) (argv birth : List Bytes) : Process :=
  { Process.start { p.own with argv := argv, birth := birth } p.cwd with
    directory := startDirectory v birth p.cwd
    mask := p.mask
    limits := p.limits
    arg0 := ((argv.head?).map Latin1.decode).getD ""
    vars := startVariables birth (startDirectory v birth p.cwd) p.own.parent
    immune := p.immune
    line := 0 }

/-- Sets the modes that the arguments of a shell ask for; the name of one may be due. What is left
are its operands; the letters for where it gets its script from are given back beside them. -/
def shellOptions : Option Bool → List String → Sh (List Char × List String)
  | _, [] => return ([], [])
  | some on, name :: rest => do
    setLongMode name on
    shellOptions none rest
  | none, a :: rest => do
    match a.toList with
    | ['-', '-'] | ['-'] => return ([], rest)
    | sign :: letters =>
      if sign != '-' && sign != '+' then return ([], a :: rest)
      else
        let on := sign == '-'
        for c in letters do
          unless ['c', 's', 'o'].contains c do setMode c on
        let (more, operands) ← shellOptions (if letters.contains 'o' then some on else none) rest
        return ((letters.filter fun c => c == 'c' || c == 's') ++ more, operands)
    | [] => return ([], a :: rest)

def scriptPiece : Nat := 8192

def lastLine (s : Source) : Nat := s.line + s.rest.count '\n'

/-- Runs commands as they are read from a descriptor. A command is run as soon as no more of the
text could belong to it: a line end after what there is would be left over. -/
def readLines (e : Engine) (n : Nat) : Nat → Source → Bool → Nat → Sh Nat
  | 0, _, _, _ => throw .exhausted
  | fuel + 1, s, ended, found => do
    let more : Sh Nat := do
      match ← readSome n scriptPiece with
      | .ok (b :: bs) =>
        spend (5 + bs.length / 256)
        let piece := (Latin1.decode (b :: bs)).toList
        readLines e n fuel { s with rest := s.rest ++ piece } false found
      | _ => readLines e n fuel s true found
    let tried := if ended then s else { s with rest := s.rest ++ ['\n'] }
    match Reader.line? tried with
    | .error f =>
      if !ended && lastLine s ≤ f.line + 1 then more
      else
        changeProcess fun p => { p with line := f.line }
        fail ("Syntax error: " ++ f.text)
    | .ok none =>
      if ended then return found else more
    | .ok (some (script, after)) =>
      if !ended && after.rest.isEmpty then more
      else
        let next := if ended then after else { after with rest := after.rest.dropLast }
        match script with
        | .nothing => readLines e n fuel next ended found
        | script =>
          e.run false script
          readLines e n fuel next ended (← status)

def runFrom (e : Engine) (n : Nat) : Sh Unit := do
  setStatus (← readLines e n mostReadings (Reader.start "") false 0)

def shellMain (e : Engine) (args : List String) : Sh Unit := do
  let runText (s : String) : Sh Unit := do
    let n ← e.text false s
    setStatus n
  let (sources, operands) ← shellOptions none args
  if sources.contains 'c' then
    match operands with
    | [] => fail "-c requires an argument"
    | command :: rest =>
      match rest with
      | [] => pure ()
      | name :: args => changeProcess fun p => { p with arg0 := name, args := args }
      runText command
  else
    match operands with
    | first :: rest =>
      if sources.contains 's' then
        setArgs operands
        runFrom e 0
      else
        match ← openForReading first with
        | .error f => fail ("cannot open " ++ first ++ ": " ++ openingFault f false)
        | .ok number =>
          changeProcess fun p => { p with arg0 := first, args := rest }
          setDescriptor sourceDescriptor (some number)
          runFrom e sourceDescriptor
    | [] => runFrom e 0

def becomeShell (e : Engine) (argv birth : List Bytes) : Sh ExitStatus := do
  let v ← view
  changeProcess fun p => freshShell v p argv birth
  outcome e (shellMain e (argv.tail.map Latin1.decode))

def interpreter? (text : Bytes) : Option (String × List String) :=
  match (Latin1.decode text).toList with
  | '#' :: '!' :: rest =>
    let line := String.ofList (rest.takeWhile (· != '\n'))
    let cs := line.toList.dropWhile fun c => c == ' ' || c == '\t'
    let name := cs.takeWhile fun c => c != ' ' && c != '\t'
    let argument := (cs.drop name.length).dropWhile fun c => c == ' ' || c == '\t'
    let argument := (argument.reverse.dropWhile fun c => c == ' ' || c == '\t').reverse
    some (String.ofList name, if argument.isEmpty then [] else [String.ofList argument])
  | _ => none

def isBinary (text : Bytes) : Bool :=
  (text.takeWhile (· != 10)).any fun b => b == 127 || (b < 32 && !(9 ≤ b && b ≤ 13))

/-- A program that has been found, if the program that it names on its first line can be run. -/
def runnable (v : View) (cwd : Location) : Nat → Found → Except Errno Found
  | 0, _ => .error .tooManyLinks
  | fuel + 1, found =>
    match found.program with
    | .script content =>
      match interpreter? content with
      | none => if isBinary content then .error .notExecutable else .ok found
      | some (name, _) =>
        match v.program cwd (Latin1.encode name) with
        | .error e => .error e
        | .ok next => (runnable v cwd fuel next).map fun _ => found
    | _ => .ok found

def mostInterpreters : Nat := 6

/-- What was opened of the memory of this process is gone when it becomes another program. -/
def forget (p : Process) (f : OpenFile) : OpenFile :=
  match f.target with
  | .kept l _ =>
    if l[1]? == some (Latin1.encode (toString p.own.pid)) &&
        l.getLast? == some (Bytes.ofString "environ") then { f with target := .kept l .empty }
    else f
  | _ => f

def lossStatus (name : String) : Nat :=
  if ["ls", "sort", "grep"].contains name then 2 else 1

/-- Runs a tool to its end. Output that was not taken is told of then. -/
def runTool (name : String) (called : String) (run : Tool → Sh Nat) (t : Tool) : Sh Unit := do
  let n ← run t
  match (← process).outputFault? with
  | none => setStatus n
  | some f =>
    let what := if name == "cat" && f = .badDescriptor then "standard output" else "write error"
    Sh.err (called ++ ": " ++ what ++ ": " ++ describe f ++ "\n")
    changeProcess fun p => { p with outputFault? := none }
    setStatus (max n (lossStatus name))

def started (path : Bytes) (argv : List Bytes) : Sh Started := do
  let own := (← process).own
  let silent (n : Nat) : Sh Bool := do
    return (← openFile? n).any fun f => f.target == .device "null"
  return ⟨path, argv, own.birth, own.session == own.pid, ← [0, 1, 2].mapM silent⟩

/-- Runs a program in this process. -/
def become (launch : Launcher) (e : Engine) : Nat → Found → List Bytes → Sh ExitStatus
  | 0, _, _ => throw .exhausted
  | fuel + 1, ⟨path, l, program⟩, argv => do
    changeProcess fun p =>
      { p.settledSignals with
        shell? := none
        own := { p.own with
          executable := l
          argv := argv
          descriptors := p.own.descriptors.filter (·.1 < sourceDescriptor) } }
    let p ← process
    for d in p.own.descriptors do
      changeFile d.2 (forget p)
    stir
    spend startTime
    let birth := p.own.birth
    match program with
    | .shell => becomeShell e argv birth
    | .script content =>
      match interpreter? content with
      | none => becomeShell e (Bytes.ofString "/bin/sh" :: path :: argv.tail) birth
      | some (name, more) =>
        let argv := (name :: more).map Latin1.encode ++ path :: argv.tail
        match (← view).program (← process).cwd (Latin1.encode name) with
        | .ok found => become launch e fuel found argv
        | .error _ => return exited 127
    | .tool name =>
      match Tool.table.lookup name with
      | none => return exited 0
      | some run =>
        changeProcess fun p => { p with outputFault? := none }
        let called := ((argv.head?).map Latin1.decode).getD name
        outcome e (runTool name called run
          ⟨Tool.baseName called, argv.tail.map Latin1.decode, replace fuel⟩)
    | .probe | .client =>
      let p ← process
      let h ← host
      let course := launch l program (← started path argv) p.own.pid { h with cwd := p.cwd }
      changeHost fun _ => { course.host with cwd := h.cwd }
      let _ ← writeBytes 1 course.out
      let _ ← writeBytes 2 course.err
      match course.fate with
      | .ended status => return status
      | .becomes next argv entries =>
        changeProcess fun p => { p with own := { p.own with birth := entries } }
        become launch e fuel next argv
      | .stays =>
        await (fun _ => false) none
        throw .exhausted
where
  find (command : List String) : Sh (Except Errno Found) := do
    let name := command.head?.getD ""
    let p ← process
    let v ← view
    return (v.findProgram p.cwd p.own.birth (Latin1.encode name)).bind
      (runnable v p.cwd mostInterpreters)
  replace (fuel : Nat) (command : List String) : Sh (Except Errno Nat) := do
    match ← find command with
    | .error f => return .error f
    | .ok found =>
      match ← become launch e fuel found (command.map Latin1.encode) with
      | .exited n =>
        changeProcess fun p => { p with outputFault? := none, traps := [] }
        return .ok n.toNat
      | .killed n => throw (.killed n)

def chainLength : Nat := 40

def missingStatus (f : Errno) : Nat :=
  if f = .noEntry || f = .notDirectory || f = .tooManyLinks || f = .nameTooLong then 127 else 126

def missingText (f : Errno) : String :=
  if f = .noEntry || f = .notDirectory then "not found" else describe f

/-- The program that a word stands for: by its path, or in the directories of the shell. Of what
is found but cannot be run the last is told. -/
def lookProgram (name : String) : Sh (Except Errno Found) := do
  let v ← view
  let cwd := (← process).cwd
  let at_ (path : String) : Except Errno Found := v.program cwd (Latin1.encode path)
  if name.contains '/' then return (at_ name).bind (runnable v cwd mostInterpreters)
  else
    let mut last := Errno.noEntry
    for dir in ((← value? "PATH").getD "").splitOn ":" do
      match at_ (if dir.isEmpty then name else dir ++ "/" ++ name) with
      | .ok found => return runnable v cwd mostInterpreters found
      | .error e => unless e = .noEntry || e = .notDirectory do last := e
    return .error last

def execute (launch : Launcher) (e : Engine) (name : String) (args : List String) : Sh Nat := do
  match ← lookProgram name with
  | .error f =>
    complain (name ++ ": " ++ missingText f)
    throw (.exits (missingStatus f))
  | .ok found =>
    let birth ← entries
    changeProcess fun p => { p with own := { p.own with birth := birth }, command? := none }
    match ← become launch e chainLength found ((name :: args).map Latin1.encode) with
    | .exited n =>
      changeProcess fun p => { p with traps := [] }
      throw (.exits n.toNat)
    | .killed n => throw (.killed n)

def external (launch : Launcher) (e : Engine) (last : Bool) (name : String)
    (args : List String) : Sh Nat := do
  match ← lookProgram name with
  | .error f =>
    complain (name ++ ": " ++ missingText f)
    return if name.contains '/' then missingStatus f else 127
  | .ok found =>
    if last then execute launch e name args
    else
      forgetJob
      let birth ← entries
      let pid ← newNumber
      let child := copyOf (← process) pid
      fork ⟨{ child with own := { child.own with birth := birth } },
        .program found ((name :: args).map Latin1.encode)⟩
      foreground [pid]

/-! ### Simple commands -/

def assign (a : String × Word) : Sh Unit := do
  let v ← textOf capture a.2
  setVariable a.1 v

def withAssignments (assignments : List (String × Word)) (body : Sh Nat) :
    Sh Nat := do
  let mut saved : List (String × Option Variable) := []
  for a in assignments do
    let old ← findVariable? a.1
    assign a
    if let some v ← findVariable? a.1 then putVariable { v with exported := true }
    saved := (a.1, old) :: saved
  match ← attempt body with
  | .ok n =>
    restore saved
    return n
  | .error stop =>
    restore saved
    throw stop

def deepestCall : Nat := 1000

def call (e : Engine) (tested : Bool) (body : Script) (args : List String) : Sh Nat := do
  let before ← process
  if deepestCall ≤ before.functionDepth then
    fail ("Maximum function recursion depth (" ++ toString deepestCall ++ ") reached")
  changeProcess fun p =>
    { p with args := args, loops := 0, hidden := [] :: p.hidden,
             functionDepth := p.functionDepth + 1 }
  let stop? ← stopOf (e.run tested body)
  let hidden := ((← process).hidden.head?).getD []
  changeProcess fun p =>
    { p with args := before.args, loops := before.loops, hidden := before.hidden,
             functionDepth := before.functionDepth }
  restore hidden
  match stop? with
  | none | some (.returns _) => status
  | some stop => throw stop

/-- Runs a command of the shell. A fault ends the shell only in a special one. -/
def builtin (special : Bool) (name : String) (run : Sh Nat) : Sh Nat := do
  let before := (← process).command?
  changeProcess fun p => { p with command? := some name, outputFault? := none }
  match ← attempt run with
  | .ok n =>
    let lost := (← process).outputFault?.isSome
    if lost then complain (name ++ ": I/O error")
    changeProcess fun p => { p with command? := before, outputFault? := none }
    return if lost then n ||| 1 else n
  | .error stop =>
    changeProcess fun p => { p with command? := before }
    if stop == .fault && !special then return 2 else throw stop

def expanded (words : List Word) : Sh (List String) := do
  let marks := (words.head?.bind Word.bare?).any fun n => ["export", "readonly", "local"].contains n
  if !marks then fieldsOf capture words
  else
    let mut found : List String := []
    for w in words do
      match Reader.assignment? w with
      | some (name, v) => found := found ++ [name ++ "=" ++ (← textOf capture v)]
      | none => found := found ++ (← fieldsOf capture [w])
    return found

def commanded? : List String → Option (List String)
  | [] => none
  | a :: rest =>
    match a.toList with
    | ['-', '-'] => if rest.isEmpty then none else some rest
    | '-' :: _ => none
    | _ => some (a :: rest)

/-- Looks a command up and runs it: special commands of the shell, functions, other commands of
the shell, programs. -/
def dispatch (launch : Launcher) (e : Engine) (tested last functions : Bool)
    (assignments : List (String × Word)) : Nat → List String → Sh Nat
  | 0, _ => throw .exhausted
  | _ + 1, [] => return 0
  | fuel + 1, name :: args => do
    let special := Reader.specialCommands.contains name
    let p ← process
    let body? := if functions then p.functions.lookup name else none
    if name == "exec" then
      assignments.forM assign
      let args := if args.head? == some "--" then args.tail else args
      match args with
      | [] => return 0
      | program :: rest => builtin functions "exec" (execute launch e program rest)
    else if special then
      assignments.forM assign
      match builtin? e tested name with
      | some run => builtin functions name (run args)
      | none => return 0
    else
      match body? with
      | some body => withAssignments assignments (call e tested body args)
      | none =>
        if name == "command" then
          match commanded? args with
          | some rest => dispatch launch e tested last false assignments fuel rest
          | none => builtin false name do
            let (options, words) ← splitOptions "vV" "" args
            match options.getLast?, words with
            | some (c, _), word :: _ => describeCommands (c == 'V') [word]
            | _, _ => return 0
        else
          match builtin? e tested name with
          | some run => withAssignments assignments (builtin false name (run args))
          | none => withAssignments assignments (external launch e last name args)

def simple (launch : Launcher) (e : Engine) (tested : Bool) (line : Nat)
    (assignments : List (String × Word)) (words : List Word) (rs : List Redirection) :
    Sh Unit := do
  let p ← process
  let last := p.last && p.traps.all (·.2.isEmpty)
  changeProcess fun p => { p with line := line, outputStatus := 0, last := false }
  spend commandTime
  let fields ← expanded words
  match fields with
  | [] =>
    let done ← redirected rs (assignments.forM assign)
    let p ← process
    setStatus (if done then p.outputStatus else 2)
  | name :: args =>
    if name == "exec" && args.all (· == "--") then
      redirectShell rs
      assignments.forM assign
      setStatus 0
    else
      let done ← redirected rs do
        setStatus (← dispatch launch e tested last true assignments (fields.length + 2) fields)
      unless done do
        setStatus 2
        if Reader.specialCommands.contains name then throw .fault

/-! ### Compound commands -/

def turn (body : Sh Unit) : Sh Bool := do
  match ← stopOf body with
  | none => return true
  | some (.leaves n) =>
    if n ≤ 1 then return false else throw (.leaves (n - 1))
  | some (.continues n) =>
    if n ≤ 1 then return true else throw (.continues (n - 1))
  | some stop => throw stop

def looping (body : Sh Unit) : Sh Unit := do
  let before := (← process).loops
  changeProcess fun p => { p with loops := before + 1 }
  let stop? ← stopOf body
  changeProcess fun p => { p with loops := before }
  match stop? with
  | none => return
  | some stop => throw stop

def mostTurns : Nat := 1000000000000

def loop (e : Engine) (tested whileFails : Bool) (test body : Script) : Nat → Nat → Sh Unit
  | 0, _ => throw .exhausted
  | fuel + 1, last => do
    let on ← turn (e.run true test)
    if !on then setStatus 0
    else if ((← status) == 0) == whileFails then setStatus last
    else
      let on ← turn (e.run tested body)
      if on then loop e tested whileFails test body fuel (← status) else return

def each (e : Engine) (tested : Bool) (name : String) (body : Script) : List String → Sh Unit
  | [] => return
  | v :: rest => do
    setVariable name v
    if ← turn (e.run tested body) then each e tested name body rest else return

def armFor? (word : String) : List (List Word × Script) → Sh (Option Script)
  | [] => return none
  | (patterns, body) :: rest => do
    for w in patterns do
      if (← patternOf capture w).acceptsText word then return some body
    armFor? word rest

/-- Whether a failure of this construct is its own. -/
def failsItself : Script → Bool
  | .simple _ _ _ _ | .pipeline _ | .background _ | .subshell _ _ _ => true
  | _ => false

/-- What each construct does, with an engine for what stands in it. -/
def within (launch : Launcher) (e : Engine) (tested : Bool) (s : Script) : Sh Unit := do
  if ← hasMode 'n' then return
  let p ← process
  setLast false
  let runLast (s : Script) : Sh Unit := do
    setLast p.last
    e.run tested s
  let onLine (line : Nat) : Sh Unit := changeProcess fun p => { p with line := line }
  match s with
  | .nothing => return
  | .simple line assignments words rs =>
    setLast p.last
    simple launch e tested line assignments words rs
  | .sequence a b =>
    e.run tested a
    runLast b
  | .both a b =>
    e.run true a
    if (← status) == 0 then runLast b
  | .either a b =>
    e.run true a
    unless (← status) == 0 do runLast b
  | .negation a =>
    e.run true a
    setStatus (if (← status) == 0 then 1 else 0)
  | .pipeline parts => setStatus (← foreground (← startAll id tested none parts))
  | .background a => background a
  | .subshell line a rs =>
    onLine line
    let rs := (← redirectsOf rs).map Redirect.settled
    if p.last && p.traps.all (·.2.isEmpty) then
      redirectAll rs
      runLast a
      throw (.exits (← status))
    else setStatus (← foreground [← forked id tested rs a])
  | .redirected line a rs =>
    onLine line
    unless ← redirected rs (e.run tested a) do
      setStatus 2
      if !tested && (← hasMode 'e') then throw (.exits 2)
  | .conditional test yes no? =>
    e.run true test
    if (← status) == 0 then runLast yes
    else
      match no? with
      | some no => runLast no
      | none => setStatus 0
  | .loop whileFails test body => looping (loop e tested whileFails test body mostTurns 0)
  | .each line name words? body =>
    onLine line
    let values ← match words? with
      | some ws => fieldsOf capture ws
      | none => do pure (← process).args
    if values.isEmpty then setStatus 0
    else looping (each e tested name body values)
  | .choice line word arms =>
    onLine line
    let w ← textOf capture word
    match ← armFor? w arms with
    | none | some .nothing => setStatus 0
    | some body => runLast body
  | .define name body =>
    changeProcess fun p =>
      { p with functions := (name, body) :: p.functions.filter (·.1 != name) }
    setStatus 0
  runTraps e
  if failsItself s && !tested && (← status) != 0 && (← hasMode 'e') then
    throw (.exits (← status))

def overflow : Stop := .killed 11

/-- An engine for scripts that stand in one another no deeper than this. -/
def engine (launch : Launcher) : Nat → Engine
  | 0 => ⟨fun _ _ => throw overflow, fun _ _ => throw overflow⟩
  | n + 1 =>
    { run := fun tested s state => within launch (engine launch n) tested s state
      text := fun tested s state => text (engine launch n) tested s state }

def deepest : Nat := 10000

def perform (launch : Launcher) (t : Task) : Sh ExitStatus :=
  let e := engine launch deepest
  match t with
  | .script tested rs body => outcome e do
    redirectAll rs
    e.run tested body
  | .program found argv => become launch e chainLength found argv

end Run

end HelperHandoff.Host.Shell
