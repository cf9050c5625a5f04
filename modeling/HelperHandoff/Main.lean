import HelperHandoff.Host.Launch

set_option autoImplicit false

namespace HelperHandoff.CommandLine

def strings (block : ByteArray) : List Bytes := (Bytes.fields Bytes.nul block.toList).dropLast

def block (path : String) : IO (List Bytes) := do
  try
    return strings (← IO.FS.readBinFile path)
  catch _ =>
    return []

def isReadable (path : Bytes) : IO Bool := do
  match Utf8.decode? path with
  | none => return false
  | some p =>
    try
      let _ ← IO.FS.Handle.mk p .read
      return true
    catch _ =>
      return false

def candidates (exe : Bytes) (entries : List Bytes) : List Bytes :=
  let name := Bytes.ofString Protocol.payloadProgram
  let dir := (Path.parent? exe).getD []
  let above := (Path.parent? dir).getD []
  let search := (Environment.lookup (Bytes.ofString "PATH") entries).getD Host.defaultSearchPath
  (dir :: above :: Bytes.fields Bytes.colon search).map fun d => Path.join d name

def location (p : Bytes) : Host.Location := (Bytes.fields Bytes.slash p).filter (!·.isEmpty)

def hostWith (cwd : Host.Location) (exe : Bytes) (programs : List Bytes) : Host :=
  let h := Host.fresh cwd
  let tree := programs.foldl (fun t p => t.make cwd p (.binary (.tool "true"))) h.tree
  { h with tree := tree.make cwd exe (.binary .client) }

def said (b : Bytes) : ByteArray := ⟨b.toArray⟩

end HelperHandoff.CommandLine

open HelperHandoff CommandLine in
def main : IO UInt32 := do
  let entries ← block "/proc/self/environ"
  let argv ← block "/proc/self/cmdline"
  let exe := Bytes.ofString (← IO.appPath).toString
  let cwd := location (Bytes.ofString (← IO.currentDir).toString)
  let found ← (candidates exe entries).filterM isReadable
  let h := hostWith cwd exe found
  let p : ProcessView :=
    { pid := 0, env := entries, argv := argv, cwd := .ok cwd.path, executable := some exe }
  let course := Client.run (Host.outsideOf entries ConnectRetry.default.intervalMs true) p
    (Host.Scene.still h) .empty
  match course.ending? with
  | some (.exits status text) =>
    (← IO.getStderr).putStr text
    return status.toUInt32
  | some (.becomes c) =>
    let out ← IO.getStdout
    for word in c.program :: c.argv do
      out.write (said (word ++ [10]))
    return 0
  | none => return 0
