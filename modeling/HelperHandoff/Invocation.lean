import HelperHandoff.Environment
import HelperHandoff.Event
import HelperHandoff.SortedMap

set_option autoImplicit false

namespace HelperHandoff

structure Invocation where
  pid : UInt32
  environ : SortedMap String String
  spawnEnv : List (Bytes × Bytes)
  argv : List String
  cwd : Bytes

namespace Invocation

/-- The pairs that stay once the control variable is taken out. -/
def keep (control : String) (vars : List (Bytes × Bytes)) : List (Bytes × Bytes) :=
  vars.filter fun p => p.1 ≠ Bytes.ofString control

def lossOf (part : TextPart) (b : Bytes) : List Event :=
  match Utf8.decode? b with
  | some _ => []
  | none => [.lossyConversion part]

/-- The context of an invocation, from pairs of names and values. -/
def ofPairs (pid : UInt32) (vars : List (Bytes × Bytes)) (argv : List Bytes) (cwd : Bytes)
    (control : String) : Invocation :=
  let kept := keep control vars
  { pid := pid
    environ := SortedMap.ofPairs (kept.map fun p => (Utf8.lossy p.1, Utf8.lossy p.2))
    spawnEnv := kept
    argv := argv.map Utf8.lossy
    cwd := cwd }

/-- What is reported while the context is built: name, then value of each kept pair, then the
arguments. -/
def lossEvents (vars : List (Bytes × Bytes)) (argv : List Bytes) (control : String) :
    List Event :=
  ((keep control vars).flatMap fun p => lossOf .environName p.1 ++ lossOf .environValue p.2) ++
    argv.flatMap (lossOf .argument)

/-- The same from raw entries, every one of which counts. -/
def ofEntries (pid : UInt32) (entries : List Bytes) (argv : List Bytes) (cwd : Bytes)
    (control : String) : Invocation :=
  ofPairs pid (entries.map Environment.split) argv cwd control

def program? (i : Invocation) : Option String := i.argv.head?

end Invocation

/-- A process as far as an invocation can be captured from it. -/
structure ProcessView where
  pid : UInt32
  env : List Bytes
  argv : List Bytes
  cwd : Except IoError Bytes
  executable : Option Bytes

namespace Invocation

def capture (p : ProcessView) (control : String) : Except HandoffError Invocation :=
  match p.cwd with
  | .error e => .error (.setup "resolve current directory" e)
  | .ok cwd => .ok (ofPairs p.pid (Environment.pairs p.env) p.argv cwd control)

def captureEvents (p : ProcessView) (control : String) : List Event :=
  match p.cwd with
  | .error _ => []
  | .ok _ => lossEvents (Environment.pairs p.env) p.argv control

/-- The control variable is present, whatever its value. -/
def requested (env : List Bytes) : Bool :=
  (Environment.lookup (Bytes.ofString Protocol.controlVariable) env).isSome

end Invocation

end HelperHandoff
