import HelperHandoff.Host.Basic

set_option autoImplicit false

namespace HelperHandoff.Host

open Bytes (slash colon)

structure Found where
  path : Bytes
  location : Location
  program : Program
  deriving DecidableEq, Repr

/-- What a file does when it is run, if one may run it: somebody has to have the right to. -/
def File.program? (f : File) : Option Program :=
  if f.mode &&& 0o111 = 0 then none
  else
    match f.node with
    | .binary p => some p
    | .file content => some (.script content.bytes)
    | _ => none

def View.program (v : View) (cwd : Location) (p : Bytes) : Except Errno Found :=
  match v.resolve cwd p with
  | .error e => .error e
  | .ok l =>
    match v.file? l with
    | some f =>
      match f.program? with
      | some program => .ok ⟨p, l, program⟩
      | none => .error .accessDenied
    | none => .error (if l.isEmpty then .accessDenied else .noEntry)

def defaultSearchPath : Bytes := Bytes.ofString "/bin:/usr/bin"

def longestSearched : Nat := 4095

/-- Tries directories in turn. One that lacks the program is passed over; that it may not be run
in one of them is only told in the end; any other failure ends the search. A directory that is
too long is not tried: the working directory stands in for it, unless it is the last. -/
def View.trySearch (v : View) (cwd : Location) (name : Bytes) (denied : Bool) (last : Errno) :
    List Bytes → Except Errno Found
  | [] => .error (if denied then .accessDenied else last)
  | dir :: rest =>
    let skipped := longestSearched < dir.length
    if skipped && rest.isEmpty then .error (if denied then .accessDenied else last)
    else
      match v.program cwd (if dir.isEmpty || skipped then name else dir ++ slash :: name) with
      | .ok found => .ok found
      | .error e =>
        if e = Errno.accessDenied then v.trySearch cwd name true e rest
        else if e = Errno.noEntry ∨ e = Errno.notDirectory then v.trySearch cwd name denied e rest
        else .error e

def View.findProgram (v : View) (cwd : Location) (entries : List Bytes) (name : Bytes) : Except Errno Found :=
  if name.isEmpty then .error .noEntry
  else if name.contains slash then v.program cwd name
  else if View.longestName < name.length then .error .nameTooLong
  else
    let search := (Environment.lookup (Bytes.ofString "PATH") entries).getD defaultSearchPath
    v.trySearch cwd name false .noEntry (Bytes.fields colon search)

def longestArgument : Nat := 131072

def argumentRoom : Nat := 2097152

def pointerSize : Nat := 8

/-- The room that a program is given its path, arguments and environment in: the strings with
their terminators, and a pointer to each argument and entry. -/
def argumentSize (path : Bytes) (argv entries : List Bytes) : Nat :=
  ((path :: argv ++ entries).map fun b => b.length + 1).foldl (· + ·) 0 +
    pointerSize * (max argv.length 1 + entries.length)

def argumentsFit (path : Bytes) (argv entries : List Bytes) : Bool :=
  (argv ++ entries).all (·.length < longestArgument) &&
    argumentSize path argv entries ≤ argumentRoom

def wouldRun (h : Host) (c : Command) (own : List Bytes) : Except IoError Found :=
  if c.hasNul then .error .nulInCommand
  else
    let entries := c.entries own
    match h.tree.view.findProgram h.cwd entries c.program with
    | .error e => .error (.system e)
    | .ok found =>
      if argumentsFit found.path c.argv entries then .ok found
      else .error (.system .argumentsTooLong)

end HelperHandoff.Host
