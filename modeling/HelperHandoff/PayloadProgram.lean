import HelperHandoff.Act
import HelperHandoff.Command

set_option autoImplicit false

namespace HelperHandoff.PayloadProgram

def productsDirectory : String := "deps"

/-- The file `name` beside `exe`, or one level up if `exe` is a build product. -/
def siblingOf (isFile : Bytes → Bool) (exe name : Bytes) : Option Bytes :=
  match Path.parent? exe with
  | none => none
  | some dir =>
    let beside := Path.join dir name
    if isFile beside then some beside
    else if Path.fileName? dir = some (Bytes.ofString productsDirectory) then
      match Path.parent? dir with
      | none => none
      | some above =>
        let p := Path.join above name
        if isFile p then some p else none
    else none

def resolve (isFile : Bytes → Bool) (executable : Option Bytes) : Bytes :=
  let name := Bytes.ofString Protocol.payloadProgram
  (executable.bind fun exe => siblingOf isFile exe name).getD name

structure Failure where
  program : Bytes
  source : IoError
  deriving DecidableEq, Repr

namespace Failure

def message (f : Failure) : String := "exec " ++ f.program.display

def chain (f : Failure) : String := f.message ++ ": " ++ f.source.message

end Failure

end HelperHandoff.PayloadProgram
