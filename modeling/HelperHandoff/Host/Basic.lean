import HelperHandoff.Command
import HelperHandoff.ExitStatus
import HelperHandoff.Host.Tree
import HelperHandoff.Transport

set_option autoImplicit false

namespace HelperHandoff

inductive ReplyKind where
  | exit
  | raw
  | remove
  | silent
  deriving DecidableEq, Repr

structure Reply where
  kind : ReplyKind
  code : Int32
  out : Bytes
  err : Bytes
  deriving DecidableEq, Repr

namespace Host

/-- What a program finds when it is started. -/
structure Started where
  path : Bytes
  argv : List Bytes
  entries : List Bytes
  leads : Bool
  silent : List Bool
  deriving DecidableEq, Repr

structure Server where
  socket : Nat
  reply : Reply
  started? : Option Started
  deriving DecidableEq, Repr

/-- An open file as far as the other end can tell what it is. -/
inductive Handle where
  | standard (number : Nat)
  | directory (location : Location)
  deriving DecidableEq, Repr

structure Service where
  server : Server
  message : Message Handle
  replies : List (Option Errno)

end Host

structure Host where
  tree : Host.Tree
  cwd : Host.Location
  servers : List Host.Server
  sockets : Nat
  lastPid : Nat
  exits : List (Nat × ExitStatus)
  services : List Host.Service

namespace Host

open Bytes (slash)

def toolNames : List String :=
  ["[", "awk", "basename", "cat", "chmod", "cp", "dirname", "echo", "env", "false", "grep", "head",
   "kill", "ln", "ls", "mkdir", "mv", "printenv", "printf", "pwd", "readlink", "rm", "rmdir",
   "setsid", "sleep", "sort", "stat", "test", "touch", "tr", "true", "wc"]

def locationOf (p : String) : Location := (Bytes.fields slash (Bytes.ofString p)).drop 1

def text (s : String) : Content := .ofBytes (Bytes.ofString s)

def system : Tree :=
  let directories := ["/usr", "/usr/bin", "/usr/sbin", "/usr/lib", "/usr/local",
    "/usr/local/bin", "/usr/local/sbin", "/dev", "/etc", "/home", "/opt", "/proc", "/root",
    "/tmp", "/var", "/var/tmp"]
  let devices := ["/dev/null", "/dev/zero", "/dev/full", "/dev/random", "/dev/urandom"]
  .ofNodes <|
    directories.map (fun p => (locationOf p, .directory)) ++
      devices.map (fun p => (locationOf p, .device)) ++
      toolNames.map (fun n => (locationOf ("/usr/bin/" ++ n), .binary (.tool n))) ++
      [(locationOf "/bin", .link (Bytes.ofString "usr/bin")),
       (locationOf "/sbin", .link (Bytes.ofString "usr/sbin")),
       (locationOf "/usr/bin/dash", .binary .shell),
       (locationOf "/usr/bin/sh", .link (Bytes.ofString "dash")),
       (locationOf "/etc/passwd", .file (text "root:x:0:0:root:/root:/bin/bash\n")),
       (locationOf "/etc/hostname", .file (text "localhost\n"))]

def firstPid : Nat := 4000

def fresh (cwd : Location) : Host :=
  { tree := (system.makeDirectories [] cwd).1
    cwd := cwd
    servers := []
    sockets := 0
    lastPid := firstPid
    exits := []
    services := [] }

def openDirectory (h : Host) (p : Bytes) : Except IoError Location :=
  if p.hasNul then .error .nulInFileName
  else
    match h.tree.resolve h.cwd p with
    | .error e => .error (.system e)
    | .ok l =>
      if (h.tree.node? l).any Node.isDirectory then .ok l
      else .error (.system .notDirectory)

def writeFile (h : Host) (now : Nat) (p content : Bytes) : Except IoError Host :=
  if p.hasNul then .error .nulInFileName
  else
    match h.tree.resolve h.cwd p with
    | .ok l =>
      match h.tree.node? l, h.tree.number? l with
      | some .directory, _ => .error (.system .isDirectory)
      | some (.socket _), _ => .error (.system .noDevice)
      | some (.file _), some number =>
        .ok { h with tree := h.tree.change number fun f =>
          { f with node := .file (.ofBytes content), changed := now } }
      | _, _ => .ok h
    | .error .noEntry =>
      match h.tree.view.newPlace h.cwd p with
      | .ok l =>
        let f := File.usual (.file (.ofBytes content))
        .ok { h with tree := h.tree.putFile l { f with changed := now } }
      | .error e => .error (.system e)
    | .error e => .error (.system e)

def isFile (h : Host) (p : Bytes) : Bool :=
  !p.hasNul &&
    match h.tree.view.resolveNode h.cwd p with
    | .ok n => n.isFile
    | .error _ => false

end Host

end HelperHandoff
