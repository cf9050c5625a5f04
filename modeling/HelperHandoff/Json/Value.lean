set_option autoImplicit false

namespace HelperHandoff

inductive Json where
  | null
  | bool (b : Bool)
  | number (digits exponent : Int)
  | string (s : String)
  | array (items : List Json)
  | object (members : List (String × Json))
  deriving Inhabited

namespace Json

def integer (n : Int) : Json := .number n 0

def member? (name : String) : Json → Option Json
  | .object ms => (ms.find? fun m => m.1 == name).map (·.2)
  | _ => none

def text? : Json → Option String
  | .string s => some s
  | _ => none

def integer? : Json → Option Int
  | .number n 0 => some n
  | _ => none

end Json

end HelperHandoff
