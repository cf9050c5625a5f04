import HelperHandoff.Host.Shell.World
import HelperHandoff.Text.Numeral

set_option autoImplicit false

namespace HelperHandoff.Host.Shell

/-! ### What there is besides the tree -/

def location (names : List String) : Location := names.map Latin1.encode

namespace Proc

def targetName (f : OpenFile) : Bytes :=
  match f.target with
  | .device name => Bytes.ofString ("/dev/" ++ name)
  | .file _ l | .kept l _ | .directory l => Location.path l
  | .input n | .output n => Bytes.ofString ("pipe:[" ++ toString n ++ "]")

/-- Pipes have places in the tree so that links lead to them, but no directory lists them. -/
def isPipeName (name : Bytes) : Bool := (Bytes.ofString "pipe:[").isPrefixOf name

def terminated (bs : List Bytes) : Bytes := bs.flatMap (· ++ [0])

def programName (f : Face) : Bytes :=
  ((f.argv.head?.map fun a => (Bytes.fields Bytes.slash a).getLast?.getD []).getD []).take 15

def statLine (p : Process) : String :=
  toString p.own.pid ++ " (" ++ Latin1.decode (programName p.own) ++ ") S " ++
    toString p.own.parent ++ " " ++ toString p.own.group ++ " " ++ toString p.own.session ++
    " 0 -1 4194304\n"

def openOf? (w : World) (p : Process) (name : Bytes) : Option OpenFile :=
  match Text.decimal? (Latin1.decode name) with
  | none => none
  | some n => (p.descriptor? n).bind (w.opened[·]?)

def node? (w : World) (p : Process) (names : List Bytes) : Option Node :=
  match names with
  | [] => some .directory
  | [a] =>
    match Latin1.decode a with
    | "fd" => some .directory
    | "cmdline" => some (.file (.ofBytes (terminated p.own.argv)))
    | "environ" => some (.file (.ofBytes (terminated p.own.birth)))
    | "stat" => some (.file (.ofBytes (Latin1.encode (statLine p))))
    | "cwd" => some (.link (Location.path p.cwd))
    | "exe" => some (.link (Location.path p.own.executable))
    | _ => none
  | [a, b] =>
    if Latin1.decode a != "fd" then none
    else if isPipeName b then some .device
    else (openOf? w p b).map fun f => .link (targetName f)
  | _ => none

def names (p : Process) (below : List Bytes) : List Bytes :=
  match below with
  | [] =>
    ["cmdline", "cwd", "environ", "exe", "fd", "stat"].map Bytes.ofString
  | [a] =>
    if Latin1.decode a == "fd" then p.own.descriptors.map fun d => Bytes.ofString (toString d.1)
    else []
  | _ => []

def procName : Bytes := Bytes.ofString "proc"
def devName : Bytes := Bytes.ofString "dev"
def selfName : Bytes := Bytes.ofString "self"

def deviceLinks : List (Bytes × Bytes) :=
  [("fd", "/proc/self/fd"), ("stdin", "/proc/self/fd/0"), ("stdout", "/proc/self/fd/1"),
   ("stderr", "/proc/self/fd/2")].map fun (a, b) => (Bytes.ofString a, Bytes.ofString b)

def processNamed? (w : World) (p : Process) (name : Bytes) : Option Process :=
  match Text.decimal? (Latin1.decode name) with
  | none => none
  | some pid => (p :: w.others).find? (·.own.pid == pid)

/-- The tree as a process sees it. -/
def view (w : World) (p : Process) : View where
  file? l :=
    match l with
    | [a, b] =>
      if a == procName then
        if b == selfName then some (.usual (.link (Bytes.ofString (toString p.own.pid))))
        else if (processNamed? w p b).isSome then some (.usual .directory)
        else w.host.tree.file? l
      else if a == devName then
        ((deviceLinks.lookup b).map fun target => .usual (.link target)).orElse fun _ =>
          w.host.tree.file? l
      else w.host.tree.file? l
    | a :: b :: rest =>
      if a == procName then
        ((processNamed? w p b).bind fun q => (node? w q rest).map .usual).orElse fun _ =>
          w.host.tree.file? l
      else w.host.tree.file? l
    | _ => w.host.tree.file? l
  names l :=
    let others := w.host.tree.names l
    match l with
    | [a] =>
      if a == procName then
        selfName :: ((p :: w.others).map fun q => Bytes.ofString (toString q.own.pid)) ++ others
      else if a == devName then deviceLinks.map (·.1) ++ others
      else others
    | a :: b :: rest =>
      if a == procName then
        ((processNamed? w p b).map fun q => names q rest).getD [] ++ others
      else others
    | [] => others

end Proc

namespace Sh

/-! ### Descriptors -/

def descriptor? (n : Nat) : Sh (Option Nat) := fun s => .done (s.process.descriptor? n) s

def setDescriptor (n : Nat) (file? : Option Nat) : Sh Unit := do
  changeProcess (·.setDescriptor n file?)
  stir

def newFile (f : OpenFile) : Sh Nat := do
  let number := (← world).opened.size
  changeWorld fun w => { w with opened := w.opened.push f }
  return number

def freeDescriptor (from_ : Nat) : Sh Nat := do
  let ds := (← process).own.descriptors
  return ((List.range' from_ (ds.length + 1)).find? fun n => !ds.any (·.1 == n)).getD from_

def file? (number : Nat) : Sh (Option OpenFile) := fun s => .done s.world.opened[number]? s

def openFile? (n : Nat) : Sh (Option OpenFile) := fun s =>
  .done ((s.process.descriptor? n).bind (s.world.opened[·]?)) s

def changeFile (number : Nat) (f : OpenFile → OpenFile) : Sh Unit :=
  changeWorld fun w => { w with opened := w.opened.modify number f }

def changePipe (number : Nat) (f : Pipe → Pipe) : Sh Unit :=
  changeWorld fun w => { w with pipes := w.pipes.modify number f }

/-! ### Pipes -/

def addPipe (p : Pipe) : Sh Nat := do
  let number := (← world).pipes.size
  changeWorld fun w => { w with pipes := w.pipes.push p }
  return number

def newPipe : Sh (Nat × Nat) := do
  let pipe ← addPipe (.empty false)
  let input ← newFile ⟨.input pipe, 0, false, true, false⟩
  let output ← newFile ⟨.output pipe, 0, false, false, true⟩
  return (input, output)

def newText (b : Bytes) : Sh Nat := do
  let pipe ← addPipe ((Pipe.empty false).push b)
  newFile ⟨.input pipe, 0, false, true, false⟩

end Sh

namespace State

def anyOpen (s : State) (kind : OpenFile → Bool) : Bool :=
  (s.process :: s.world.others).any fun p =>
    p.own.descriptors.any fun d => s.world.opened[d.2]?.any kind

def hasReader (s : State) (pipe : Nat) : Bool :=
  s.world.pipes[pipe]?.any (·.drained) || s.anyOpen (·.isInput pipe)

def hasWriter (s : State) (pipe : Nat) : Bool := s.anyOpen (·.isOutput pipe)

def held (s : State) (pipe : Nat) : Nat := (s.world.pipes[pipe]?.map (·.size)).getD 0

def room (s : State) (pipe : Nat) : Nat := (s.world.pipes[pipe]?.map (·.room)).getD 0

end State

namespace Sh

/-! ### Paths -/

def view : Sh View := fun s => .done (Proc.view s.world s.process) s

def resolve (path : String) : Sh (Except Errno Location) := do
  return (← view).resolve (← process).cwd (Latin1.encode path)

def resolveLink (path : String) : Sh (Except Errno Location) := do
  let b := Latin1.encode path
  if b.isEmpty then return .error .noEntry
  else
    let cwd := (← process).cwd
    return (← view).walk false View.mostLinks (View.origin cwd b) (Bytes.fields Bytes.slash b)

def nodeAt (l : Location) : Sh (Option Node) := do return (← view).node? l

def node? (path : String) : Sh (Option Node) := do
  match ← resolve path with
  | .ok l => nodeAt l
  | .error _ => return none

def linkNode? (path : String) : Sh (Option Node) := do
  match ← resolveLink path with
  | .ok l => nodeAt l
  | .error _ => return none

def fileAt (l : Location) : Sh (Option File) := do
  let v ← view
  return if l.isEmpty then some (.usual .directory) else v.file? l

def place (l : Location) (n : Node) (mode : Nat) : Sh Unit := do
  let mask := (← process).mask
  let now := (← world).clock
  changeTree (·.putFile l ⟨n, mode &&& (0o7777 ^^^ mask), now⟩)

def changeNode (number : Nat) (f : Node → Node) : Sh Unit := do
  let now := (← world).clock
  changeTree (·.change number fun file => { file with node := f file.node, changed := now })

end Sh

def contentOf (n : Node) : Content :=
  match n with
  | .file c => c
  | _ => .empty

namespace Sh

/-! ### Opening -/

/-- The open pipe that a location stands for. -/
def pipeAt? (l : Location) : Option Nat :=
  match l.getLast?.map (fun b => (Latin1.decode b).toList) with
  | some ('p' :: 'i' :: 'p' :: 'e' :: ':' :: '[' :: rest) =>
    Text.decimal? (String.ofList (rest.takeWhile Char.isDigit))
  | _ => none

def deviceTarget (l : Location) : Target := .device (Latin1.decode (l.getLast?.getD []))

def openForReading (path : String) : Sh (Except Errno Nat) := do
  match ← resolve path with
  | .error e => return .error e
  | .ok l =>
    match pipeAt? l with
    | some pipe => return .ok (← newFile ⟨.input pipe, 0, false, true, false⟩)
    | none =>
      match ← nodeAt l with
      | some .directory => return .ok (← newFile ⟨.directory l, 0, false, true, false⟩)
      | some .device => return .ok (← newFile ⟨deviceTarget l, 0, false, true, false⟩)
      | some (.socket _) => return .error .noDevice
      | some n =>
        let target := match (← host).tree.number? l with
          | some number => Target.file number l
          | none => .kept l (contentOf n)
        return .ok (← newFile ⟨target, 0, false, true, false⟩)
      | none => return .error .noEntry

def newPlace (path : String) : Sh (Except Errno Location) := do
  return (← view).newPlace (← process).cwd (Latin1.encode path)

/-- Opens a file for writing and makes it if it is missing. Unless its content is kept, it is
empty then. -/
def openForWriting (path : String) (keeps appends reads : Bool) : Sh (Except Errno Nat) := do
  match ← resolve path with
  | .ok l =>
    match pipeAt? l with
    | some pipe => return .ok (← newFile ⟨.output pipe, 0, false, reads, true⟩)
    | none =>
      match ← nodeAt l with
      | some .directory => return .error .isDirectory
      | some .device => return .ok (← newFile ⟨deviceTarget l, 0, appends, reads, true⟩)
      | some (.socket _) => return .error .noDevice
      | some _ =>
        match (← host).tree.number? l with
        | none => return .error .accessDenied
        | some number =>
          unless keeps do changeNode number fun _ => .file .empty
          return .ok (← newFile ⟨.file number l, 0, appends, reads, true⟩)
      | none => return .error .noEntry
  | .error .noEntry =>
    match ← newPlace path with
    | .ok l =>
      let number := (← host).tree.next
      place l (.file .empty) 0o666
      return .ok (← newFile ⟨.file number l, 0, appends, reads, true⟩)
    | .error e => return .error e
  | .error e =>
    match ← newPlace path with
    | .error .isDirectory => return .error .isDirectory
    | _ => return .error e

/-! ### Reading -/

def contentOfFile (number : Nat) : Sh Content := do
  return (((← host).tree.fileOf? number).map fun f => contentOf f.node).getD .empty

def pieceSize : Nat := 65536

inductive Portion where
  | upTo (count : Nat)
  | line
  deriving DecidableEq, Repr

namespace Portion

def front (m : Portion) (b : Bytes) : Bytes :=
  match m with
  | .upTo count => b.take count
  | .line =>
    let body := b.takeWhile (· != 10)
    match b.drop body.length with
    | [] => body
    | _ => body ++ [10]

def partOf (m : Portion) (c : Content) (offset : Nat) : Bytes :=
  match m with
  | .upTo count => c.slice offset count
  | .line => c.line offset

def takeFrom (m : Portion) (p : Pipe) : Bytes × Pipe :=
  match m with
  | .upTo count => p.take count
  | .line =>
    let pieces := p.front ++ p.back.reverse
    p.take (m.front (pieces.head?.getD [])).length

def ofEndless (m : Portion) : Nat :=
  match m with
  | .upTo count => count
  | .line => 4096

end Portion

/-- Takes bytes out of a pipe. It waits as long as there are none and somebody may still write
them; if it is to be disturbed, it does not wait while there is a trap to be run. -/
def readPipe (pipe : Nat) (m : Portion) (disturbed : Bool) : Sh (Except Errno Bytes) := do
  await (fun s => s.held pipe != 0 || !s.hasWriter pipe ||
    disturbed && !s.process.pending.isEmpty) none
  let s ← get
  if s.held pipe == 0 && s.hasWriter pipe then return .error .interrupted
  else
    match s.world.pipes[pipe]? with
    | none => return .ok []
    | some p =>
      let (b, rest) := m.takeFrom p
      changePipe pipe fun _ => rest
      stir
      return .ok b

def readPortion (n : Nat) (m : Portion) (disturbed : Bool) : Sh (Except Errno Bytes) := do
  match ← descriptor? n with
  | none => return .error .badDescriptor
  | some number =>
    match ← file? number with
    | none => return .error .badDescriptor
    | some f =>
      if !f.reads then return .error .badDescriptor
      else
        let go (content : Content) : Sh (Except Errno Bytes) := do
          let b := m.partOf content f.offset
          unless b.isEmpty do changeFile number fun f => { f with offset := f.offset + b.length }
          return .ok b
        match f.target with
        | .device name =>
          return .ok (if ["zero", "full", "random", "urandom"].contains name then
            List.replicate m.ofEndless 0 else [])
        | .directory _ => return .error .isDirectory
        | .kept _ b => go b
        | .file inode _ => go (← contentOfFile inode)
        | .input pipe | .output pipe => readPipe pipe m disturbed

def readSome (n count : Nat) : Sh (Except Errno Bytes) := readPortion n (.upTo count) false

def mostReadings : Nat := 1000000000000

/-- Reads piece by piece and gives each piece to a consumer, until there is no more or the
consumer has had enough. -/
def feed {σ : Type} (n count : Nat) (consume : σ → Bytes → Sh (σ × Bool)) :
    Nat → σ → Sh (Except Errno σ)
  | 0, _ => throw .exhausted
  | fuel + 1, state => do
    match ← readSome n count with
    | .error e => return .error e
    | .ok [] => return .ok state
    | .ok b =>
      spend (5 + b.length / 256)
      let (state, more) ← consume state b
      if more then feed n count consume fuel state else return .ok state

def readLineFrom (n : Nat) (disturbed : Bool) : Nat → List Bytes → Sh (Except Errno Bytes)
  | 0, _ => throw .exhausted
  | fuel + 1, found => do
    match ← readPortion n .line disturbed with
    | .error e => return .error e
    | .ok [] => return .ok found.reverse.flatten
    | .ok b =>
      if b.getLast? == some 10 then return .ok (b :: found).reverse.flatten
      else readLineFrom n disturbed fuel (b :: found)

def readLine (n : Nat) (disturbed : Bool) : Sh (Except Errno Bytes) :=
  readLineFrom n disturbed mostReadings []

def readAll (n : Nat) : Sh (Except Errno Bytes) := do
  let consume (found : List Bytes) (b : Bytes) : Sh (List Bytes × Bool) := return (b :: found, true)
  match ← feed n pieceSize consume mostReadings [] with
  | .ok found => return .ok found.reverse.flatten
  | .error e => return .error e

/-! ### Writing -/

def incur (signal : Nat) (e : Errno) : Sh (Option Errno) := do
  match (← process).effect signal with
  | .kills => throw (.killed signal)
  | .noted =>
    changeProcess (·.note signal)
    return some e
  | _ => return some e

/-- Puts bytes into a pipe, and waits for room for them. A few are written together or not yet. -/
def writePipe (pipe : Nat) : Nat → Bytes → Sh (Option Errno)
  | 0, _ => throw .exhausted
  | fuel + 1, b => do
    if b.isEmpty then return none
    else
      let need := if b.length ≤ Pipe.atomic then b.length else 1
      await (fun s => need ≤ s.room pipe || !s.hasReader pipe) none
      let s ← get
      if !s.hasReader pipe then incur 13 .brokenPipe
      else
        let room := s.room pipe
        let fits := s.world.pipes[pipe]?.any (·.drained) || b.length ≤ room
        let (now, later) := if fits then (b, []) else (b.take room, b.drop room)
        changePipe pipe (·.push now)
        stir
        writePipe pipe fuel later

def sizeLimit? (p : Process) : Option Nat := (p.limit? 'f').map (512 * ·)

def writeBytes (n : Nat) (b : Bytes) : Sh (Option Errno) := do
  match ← descriptor? n with
  | none => return some .badDescriptor
  | some number =>
    match ← file? number with
    | none => return some .badDescriptor
    | some f =>
      if !f.writes then return some .badDescriptor
      else
        match f.target with
        | .device name => return if name == "full" && !b.isEmpty then some .noSpace else none
        | .directory _ | .kept _ _ => return some .badDescriptor
        | .input pipe | .output pipe => writePipe pipe mostReadings b
        | .file inode _ =>
          let content ← contentOfFile inode
          let offset := if f.appends then content.size else f.offset
          let fits := match sizeLimit? (← process) with
            | none => b
            | some most => b.take (most - offset)
          unless fits.isEmpty do
            changeNode inode fun _ => .file (content.overwrite offset fits)
            changeFile number fun f => { f with offset := offset + fits.length }
          if fits.length < b.length then incur 25 .fileTooLarge else return none

/-- Writes to the output, and keeps in mind if that failed. -/
def outBytes (b : Bytes) : Sh Unit := do
  unless b.isEmpty do
    if let some e ← writeBytes 1 b then
      changeProcess fun p => { p with outputFault? := some e }

def out (s : String) : Sh Unit := outBytes (Latin1.encode s)
def err (s : String) : Sh Unit := do let _ ← writeBytes 2 (Latin1.encode s)

/-! ### Complaints -/

variable {α : Type}

def complain (text : String) : Sh Unit := do
  let p ← process
  let who := p.arg0 ++ ": " ++ toString p.line ++ ": "
  let what := match p.command? with
    | some c => c ++ ": "
    | none => ""
  err (who ++ what ++ text ++ "\n")

def fail (text : String) : Sh α := do
  complain text
  setStatus 2
  throw .fault

def describe (e : Errno) : String := (Errno.description e)

def setVariable (name value : String) : Sh Unit := do
  match ← findVariable? name with
  | some v =>
    if v.readOnly then fail (name ++ ": is read only")
    else putVariable { v with value? := some value, exported := v.exported || (← hasMode 'a') }
  | none => putVariable ⟨name, some value, ← hasMode 'a', false⟩

end Sh

end HelperHandoff.Host.Shell
