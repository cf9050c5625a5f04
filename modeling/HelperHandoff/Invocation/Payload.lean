import HelperHandoff.Invocation
import HelperHandoff.Json.Printer

set_option autoImplicit false

namespace HelperHandoff

structure Payload where
  pid : UInt32
  environ : SortedMap String String
  argv : List String
  semid : Int32

namespace Payload

def toJson (p : Payload) : Json :=
  .object
    [(Protocol.pidField, .integer p.pid.toNat),
     (Protocol.environField, .object (p.environ.entries.map fun e => (e.1, .string e.2))),
     (Protocol.argvField, .array (p.argv.map .string)),
     (Protocol.semidField, .integer p.semid.toInt)]

def text (p : Payload) : List Char := p.toJson.render

def bytes (p : Payload) : Bytes := Utf8.encode p.text

end Payload

def Invocation.payload (i : Invocation) (semid : Int32) : Payload :=
  ⟨i.pid, i.environ, i.argv, semid⟩

end HelperHandoff
