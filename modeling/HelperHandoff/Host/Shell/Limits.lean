import HelperHandoff.Host.Shell.Arguments

set_option autoImplicit false

namespace HelperHandoff.Host.Shell

def limitKinds : List (Char × Option Nat) :=
  [('t', none), ('f', none), ('d', none), ('s', some 8192), ('c', none), ('m', none), ('p', none),
   ('n', some 1048576), ('v', none)]

namespace Sh

def limitOf? (s : String) : Option (Option Nat) :=
  if s == "unlimited" then some none else (Text.decimal? s).map some

def ulimitCommand (args : List String) : Sh Nat := do
  let (options, words) ← splitOptions ("HS" ++ String.ofList (limitKinds.map (·.1))) "" args
  let letter := ((options.map (·.1)).filter fun c => c != 'H' && c != 'S').getLast?.getD 'f'
  match words with
  | [] =>
    let held := ((← process).limits.lookup letter).getD (limitKinds.lookup letter).join
    out ((held.map toString).getD "unlimited" ++ "\n")
    return 0
  | [word] =>
    match limitOf? word with
    | some bound =>
      changeProcess (·.setLimit letter bound)
      return 0
    | none => fail "bad number"
  | _ => fail "too many arguments"

end Sh

end HelperHandoff.Host.Shell
