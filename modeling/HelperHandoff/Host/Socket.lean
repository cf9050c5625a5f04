import HelperHandoff.Host.Basic

set_option autoImplicit false

namespace HelperHandoff.Host

def longestSocketPath : Nat := 107

def socketPathFault (p : Bytes) : Option IoError :=
  if p.hasNul then some .nulInSocketPath
  else if longestSocketPath < p.length then some .socketPathTooLong
  else none

def connect (h : Host) (p : Bytes) : Except IoError Server :=
  match socketPathFault p with
  | some e => .error e
  | none =>
    if p.isEmpty then .error (.system .invalidArgument)
    else
      match h.tree.view.resolveNode h.cwd p with
      | .error e => .error (.system e)
      | .ok (.socket n) =>
        match h.servers.find? (·.socket == n) with
        | some server => .ok server
        | none => .error (.system .connectionRefused)
      | .ok _ => .error (.system .connectionRefused)

/-- Listens at a path where nothing is yet; without a path, at no place in the tree. -/
def listen (h : Host) (p : Bytes) (reply : Reply) (started? : Option Started) :
    Except IoError Server × Host :=
  match socketPathFault p with
  | some e => (.error e, h)
  | none =>
    let server : Server := ⟨h.sockets, reply, started?⟩
    let opened := { h with servers := h.servers ++ [server], sockets := h.sockets + 1 }
    if p.isEmpty then (.ok server, opened)
    else
      match h.tree.view.vacancy h.cwd p .addressInUse with
      | .error e => (.error (.system e), h)
      | .ok l => (.ok server, { opened with tree := h.tree.put l (.socket h.sockets) })

def close (h : Host) (server : Server) : Host :=
  { h with servers := h.servers.filter (·.socket != server.socket) }

/-- Takes a name out of its directory, whatever it stands for but a directory. -/
def unlink (h : Host) (p : Bytes) : Except IoError Unit × Host :=
  if p.hasNul then (.error .nulInFileName, h)
  else
    match h.tree.view.occupant h.cwd p with
    | .error e => (.error (.system e), h)
    | .ok (l, slashed) =>
      if (h.tree.node? l).any Node.isDirectory then (.error (.system .isDirectory), h)
      else if slashed then (.error (.system .notDirectory), h)
      else (.ok (), { h with tree := h.tree.remove l })

def putDeadSocket (h : Host) (p : Bytes) : Host :=
  { h with tree := h.tree.make h.cwd p (.socket h.sockets), sockets := h.sockets + 1 }

end HelperHandoff.Host
