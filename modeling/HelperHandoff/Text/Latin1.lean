import HelperHandoff.Bytes

set_option autoImplicit false

namespace HelperHandoff.Latin1

def decode (b : Bytes) : String := String.ofList (b.map fun x => Char.ofNat x.toNat)

def encode (s : String) : Bytes := s.toList.map fun c => UInt8.ofNat c.toNat

end HelperHandoff.Latin1
