import HelperHandoff.Host.Search
import HelperHandoff.Host.Socket
import HelperHandoff.Json.Printer
import HelperHandoff.Json.Reader
import HelperHandoff.Text.Numeral

set_option autoImplicit false

namespace HelperHandoff.Host

inductive Fate where
  | ended (status : ExitStatus)
  | stays
  | becomes (next : Found) (argv entries : List Bytes)

structure Course where
  host : Host
  fate : Fate
  out : Bytes
  err : Bytes

def Course.ended (h : Host) (status : ExitStatus) : Course := ⟨h, .ended status, [], []⟩

def Course.stays (h : Host) : Course := ⟨h, .stays, [], []⟩

namespace Probe

def replyVariable : Bytes := Bytes.ofString "FAKE_REPLY"
def statusVariable : Bytes := Bytes.ofString "FAKE_EXIT"

/-- A signal that comes with a code is nothing to a client, which ignores it. -/
def kindOf (name : String) : ReplyKind :=
  if name == "exit" || name == "alarm" then .exit
  else if name == "raw" then .raw
  else if name == "remove" then .remove
  else .silent

def replyOf (j : Json) : Reply :=
  let string (name : String) : Bytes :=
    Bytes.ofString (((j.member? name).bind Json.text?).getD "")
  { kind := kindOf (((j.member? "do").bind Json.text?).getD "")
    code := Int32.ofInt (((j.member? "code").bind Json.integer?).getD 0)
    out := string "out"
    err := string "err" }

/-- The socket at which a probe that is started as a helper with a reply listens. -/
def serves? (argv entries : List Bytes) : Option (Bytes × Reply) :=
  match argv.drop 1, Environment.lookup replyVariable entries with
  | [subcommand, flag, socket], some text =>
    if subcommand = Bytes.ofString Protocol.helperSubcommand
        ∧ flag = Bytes.ofString Protocol.socketFlag then
      (Json.read? (Utf8.lossy text).toList).map fun j => (socket, replyOf j)
    else none
  | _, _ => none

def statusOf (entries : List Bytes) : UInt8 :=
  let code := ((Environment.lookup statusVariable entries).bind Utf8.decode?).bind fun s =>
    Text.integer? (Nat.pow 2 31) s.toList
  UInt8.ofNat ((code.getD 0) % 256).toNat

def sortedVars (entries : List Bytes) : List (Bytes × Bytes) :=
  (Environment.pairs entries).mergeSort fun a b => compare a.1 b.1 != .gt

def hexText (b : Bytes) : String :=
  String.ofList (b.flatMap fun x => [(x.toNat / 16).digitChar, (x.toNat % 16).digitChar])

def bytesJson (b : Bytes) : Json :=
  match Utf8.decode? b with
  | some s => .string s
  | none => .object [("hex", .string (hexText b))]

def report (argv entries : List Bytes) : Json :=
  .object [("argv", .array (argv.map bytesJson)),
    ("env", .array ((sortedVars entries).map fun v => .array [bytesJson v.1, bytesJson v.2]))]

def run (h : Host) (begun : Started) : Course :=
  match serves? begun.argv begun.entries with
  | some (socket, reply) =>
    match h.listen socket reply (some begun) with
    | (.ok _, t) => .stays t
    | (.error _, t) => .ended t (.exited 1)
  | none =>
    { host := h
      fate := .ended (.exited (statusOf begun.entries))
      out := Bytes.ofString (String.ofList (report begun.argv begun.entries).render)
      err := [] }

end Probe

end HelperHandoff.Host
