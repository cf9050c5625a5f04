import HelperHandoff.Host.Shell.Descriptor

set_option autoImplicit false

namespace HelperHandoff.Host.Shell

namespace Sh

/-- The options at the front of the arguments, each with its own argument if it takes one, and
what follows them. -/
def splitOptions (plain valued : String) :
    List String → Sh (List (Char × String) × List String)
  | [] => return ([], [])
  | a :: rest => do
    match a.toList with
    | ['-', '-'] => return ([], rest)
    | '-' :: c :: cs =>
      let (found, value?) ← letters (c :: cs)
      match value?, rest with
      | none, rest =>
        let (more, operands) ← splitOptions plain valued rest
        return (found ++ more, operands)
      | some (c, some v), rest =>
        let (more, operands) ← splitOptions plain valued rest
        return (found ++ (c, v) :: more, operands)
      | some (c, none), v :: rest =>
        let (more, operands) ← splitOptions plain valued rest
        return (found ++ (c, v) :: more, operands)
      | some (c, none), [] => fail ("No arg for -" ++ String.singleton c ++ " option")
    | _ => return ([], a :: rest)
where
  letters : List Char → Sh (List (Char × String) × Option (Char × Option String))
    | [] => return ([], none)
    | c :: cs => do
      if valued.contains c then
        return ([], some (c, if cs.isEmpty then none else some (String.ofList cs)))
      else if plain.contains c then
        let (found, value?) ← letters cs
        return ((c, "") :: found, value?)
      else fail ("Illegal option -" ++ String.singleton c)

def operands (args : List String) : Sh (List String) := do
  return (← splitOptions "" "" args).2

def greatestNumber : Nat := 2147483647

def numberArgument (s : String) : Sh Nat := do
  match Text.decimal? s with
  | some n => if n ≤ greatestNumber then return n else fail ("Illegal number: " ++ s)
  | none => fail ("Illegal number: " ++ s)

end Sh

end HelperHandoff.Host.Shell
