import HelperHandoff.Errno
import HelperHandoff.Host.Content
import HelperHandoff.Path

/-!
A file tree and the way a path leads through it. A location is the list of names from the root;
several locations may lead to one file, and a file that no location leads to any more may still be
open. `resolve` turns a path into a location as the kernel does: symbolic links on the way are
followed, forty of them at most, and the kind of failure says where the path went wrong.

Paths are followed through a view of a tree, which tells the file at each location: whoever looks
may see more than the tree holds.
-/

set_option autoImplicit false

namespace HelperHandoff.Host

open Bytes (slash dot)

/-- The names from the root down. -/
abbrev Location := List Bytes

inductive Program where
  | client
  | probe
  | shell
  | script (text : Bytes)
  | tool (name : String)
  deriving DecidableEq, Repr

inductive Node where
  | directory
  | file (content : Content)
  | binary (program : Program)
  | link (target : Bytes)
  | socket (number : Nat)
  | device
  deriving DecidableEq, Repr

def Node.isFile : Node → Bool
  | .file _ | .binary _ => true
  | _ => false

def Node.isDirectory (n : Node) : Bool := n == .directory

def Node.usualMode : Node → Nat
  | .directory | .binary _ | .socket _ => 0o755
  | .file _ => 0o644
  | .link _ => 0o777
  | .device => 0o666

/-- What a file is, who may do what with it, and when it last changed. -/
structure File where
  node : Node
  mode : Nat
  changed : Nat
  deriving DecidableEq, Repr

def File.epoch : Nat := 1767225600000000

def File.usual (n : Node) : File := ⟨n, n.usualMode, File.epoch⟩

structure Tree where
  entries : List (Location × Nat)
  files : List (Nat × File)
  /-- No file has this number or a greater one. -/
  next : Nat
  deriving DecidableEq, Repr

namespace Location

def path (l : Location) : Bytes :=
  if l.isEmpty then [slash] else l.flatMap (slash :: ·)

def isBelow (l m : Location) : Bool := l.length < m.length && m.take l.length == l

end Location

/-- What somebody sees of a tree. -/
structure View where
  file? : Location → Option File
  names : Location → List Bytes

namespace Tree

def empty : Tree := ⟨[], [], 0⟩

def number? (t : Tree) (l : Location) : Option Nat := t.entries.lookup l

def fileOf? (t : Tree) (number : Nat) : Option File := t.files.lookup number

def file? (t : Tree) (l : Location) : Option File :=
  match t.number? l with
  | some number => t.fileOf? number
  | none => none

def names (t : Tree) (l : Location) : List Bytes :=
  (t.entries.filterMap fun (m, _) =>
    if m.length = l.length + 1 ∧ m.take l.length = l then m.getLast? else none).eraseDups

def view (t : Tree) : View := ⟨t.file?, t.names⟩

def remove (t : Tree) (l : Location) : Tree :=
  { t with entries := t.entries.filter (·.1 != l) }

def removeAll (t : Tree) (l : Location) : Tree :=
  { t with entries := t.entries.filter fun e => e.1 != l && !l.isBelow e.1 }

def link (t : Tree) (l : Location) (number : Nat) : Tree :=
  { t with entries := (l, number) :: (t.remove l).entries }

def putFile (t : Tree) (l : Location) (f : File) : Tree :=
  { t.link l t.next with files := (t.next, f) :: t.files, next := t.next + 1 }

def put (t : Tree) (l : Location) (n : Node) : Tree := t.putFile l (.usual n)

def change (t : Tree) (number : Nat) (f : File → File) : Tree :=
  { t with files := changed t.files }
where
  changed : List (Nat × File) → List (Nat × File)
    | [] => []
    | e :: rest => if e.1 == number then (number, f e.2) :: rest else e :: changed rest

def move (t : Tree) (l m : Location) : Tree :=
  if l == m then t
  else
    let rest := (t.removeAll m).entries
    { t with
      entries := rest.map fun e =>
        if e.1 == l || l.isBelow e.1 then (m ++ e.1.drop l.length, e.2) else e }

def ofNodes (nodes : List (Location × Node)) : Tree :=
  nodes.foldl (fun t n => t.put n.1 n.2) empty

end Tree

namespace View

/-- The node at a location; the root is always a directory. -/
def node? (v : View) (l : Location) : Option Node :=
  if l.isEmpty then some .directory else (v.file? l).map (·.node)

def longestName : Nat := 255
def longestPath : Nat := 4095
def mostLinks : Nat := 40

def isHere (name : Bytes) : Bool := name.isEmpty || name == [dot]
def isAbove (name : Bytes) : Bool := name == [dot, dot]

/-- Follows names from a directory. An empty name or a dot stays, two dots go up; a link in last
place is only followed on demand. -/
def walk (v : View) (followLast : Bool) (links : Nat) (here : Location) (names : List Bytes) :
    Except Errno Location :=
  match names with
  | [] => .ok here
  | name :: rest =>
    match v.node? here with
    | none =>
      -- The way up is open even from a directory that is gone.
      if isHere name then v.walk followLast links here rest
      else if isAbove name then v.walk followLast links here.dropLast rest
      else .error .noEntry
    | some .directory =>
      if isHere name then v.walk followLast links here rest
      else if isAbove name then v.walk followLast links here.dropLast rest
      else if longestName < name.length then .error .nameTooLong
      else
        match v.node? (here ++ [name]) with
        | none => .error .noEntry
        | some (.link target) =>
          if rest.isEmpty && !followLast then .ok (here ++ [name])
          else
            match links with
            | 0 => .error .tooManyLinks
            | left + 1 =>
              v.walk followLast left (if Path.isAbsolute target then [] else here)
                (Bytes.fields slash target ++ rest)
        | some _ => v.walk followLast links (here ++ [name]) rest
    | some _ => .error .notDirectory
  termination_by (links, names.length)

def origin (cwd : Location) (p : Bytes) : Location := if Path.isAbsolute p then [] else cwd

def resolve (v : View) (cwd : Location) (p : Bytes) : Except Errno Location :=
  if p.isEmpty then .error .noEntry
  else if longestPath < p.length then .error .nameTooLong
  else v.walk true mostLinks (origin cwd p) (Bytes.fields slash p)

def resolveNode (v : View) (cwd : Location) (p : Bytes) : Except Errno Node :=
  match v.resolve cwd p with
  | .error e => .error e
  | .ok l =>
    match v.node? l with
    | some n => .ok n
    | none => .error .noEntry

/-- The place where a path would put something new: its directory, its last name, and whether a
slash follows the name. A path that ends in no name of its own has no such place. -/
def place? (p : Bytes) : Option (List Bytes × Bytes × Bool) :=
  let fields := Bytes.fields slash p
  let trimmed := (fields.reverse.dropWhile List.isEmpty).reverse
  match trimmed.getLast? with
  | none => none
  | some name =>
    if isHere name || isAbove name then none
    else some (trimmed.dropLast, name, trimmed.length < fields.length)

/-- The location where a path puts something new, unless there is something already. What is
wrong with the way there counts first. -/
def vacancy (v : View) (cwd : Location) (p : Bytes) (occupied : Errno) :
    Except Errno Location :=
  match place? p with
  | none =>
    if p.isEmpty then .error .noEntry
    else
      match v.walk true mostLinks (origin cwd p) (Bytes.fields slash p) with
      | .error e => .error e
      | .ok _ => .error occupied
  | some (above, name, slashed) =>
    match v.walk true mostLinks (origin cwd p) (above ++ [[]]) with
    | .error e => .error e
    | .ok dir =>
      if (v.node? dir).isNone then .error .noEntry
      else if longestName < name.length then .error .nameTooLong
      else if (v.node? (dir ++ [name])).isSome then .error occupied
      else if slashed then .error .noEntry
      else .ok (dir ++ [name])

/-- Where a path puts a new file: links that lead nowhere are followed to where they lead. -/
def newPlaceFrom (v : View) : Nat → Location → Bytes → Except Errno Location
  | 0, _, _ => .error .tooManyLinks
  | fuel + 1, cwd, p =>
    match v.vacancy cwd p .fileExists with
    | .error .fileExists =>
      match v.walk false mostLinks (origin cwd p) (Bytes.fields slash p) with
      | .error e => .error e
      | .ok l =>
        match v.node? l with
        | some (.link target) => v.newPlaceFrom fuel l.dropLast target
        | _ => .error .fileExists
    | r => r

def newPlace (v : View) (cwd : Location) (p : Bytes) : Except Errno Location :=
  match v.newPlaceFrom mostLinks cwd p, place? p with
  | .ok l, _ => .ok l
  | .error e, some (above, _, true) =>
    if (v.walk true mostLinks (origin cwd p) (above ++ [[]])).isOk then .error .isDirectory
    else .error e
  | .error e, _ => .error e

/-- The location of the name that a path ends in, a link itself if it is one, and whether a slash
follows the name. A path that ends in no name of its own ends in a directory. -/
def occupant (v : View) (cwd : Location) (p : Bytes) : Except Errno (Location × Bool) :=
  if p.isEmpty then .error .noEntry
  else if longestPath < p.length then .error .nameTooLong
  else
    match place? p with
    | none => (v.walk true mostLinks (origin cwd p) (Bytes.fields slash p)).map (·, true)
    | some (above, name, slashed) =>
      match v.walk true mostLinks (origin cwd p) (above ++ [[]]) with
      | .error e => .error e
      | .ok dir =>
        if longestName < name.length then .error .nameTooLong
        else if (v.node? (dir ++ [name])).isNone then .error .noEntry
        else .ok (dir ++ [name], slashed)

end View

namespace Tree

open View (mostLinks origin isHere isAbove)

def node? (t : Tree) (l : Location) : Option Node := t.view.node? l

def resolve (t : Tree) (cwd : Location) (p : Bytes) : Except Errno Location :=
  t.view.resolve cwd p

def makeDirectories (t : Tree) (here : Location) : List Bytes → Tree × Location
  | [] => (t, here)
  | name :: rest =>
    if isHere name then t.makeDirectories here rest
    else if isAbove name then t.makeDirectories here.dropLast rest
    else
      match t.node? (here ++ [name]) with
      | none => (t.put (here ++ [name]) .directory).makeDirectories (here ++ [name]) rest
      | some _ =>
        match t.view.walk true mostLinks here [name] with
        | .ok l => t.makeDirectories l rest
        | .error _ => t.makeDirectories (here ++ [name]) rest

def make (t : Tree) (cwd : Location) (p : Bytes) (n : Node) : Tree :=
  let fields := Bytes.fields slash p
  match n with
  | .directory => (t.makeDirectories (origin cwd p) fields).1
  | _ =>
    let (u, dir) := t.makeDirectories (origin cwd p) fields.dropLast
    u.put (dir ++ [fields.getLast?.getD []]) n

end Tree

end HelperHandoff.Host
