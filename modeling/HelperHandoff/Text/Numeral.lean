set_option autoImplicit false

namespace HelperHandoff.Text

def digit? (c : Char) : Option Nat :=
  if '0' ≤ c ∧ c ≤ '9' then some (c.toNat - '0'.toNat) else none

/-- The value of a run of digits, most significant first, read on from `n`. It stops growing at
`cap`: a larger value is told as `cap`, so that a long run costs no more than its length. -/
def digitsFrom (cap n : Nat) : List Char → Option Nat
  | [] => some n
  | c :: cs =>
    match digit? c with
    | some d => digitsFrom cap (min cap (10 * n + d)) cs
    | none => none

/-- An optional plus sign and at least one digit, with a value below `bound`. -/
def natural? (bound : Nat) (cs : List Char) : Option Nat :=
  let body := match cs with
    | '+' :: rest => rest
    | _ => cs
  if body.isEmpty then none
  else match digitsFrom bound 0 body with
    | some n => if n < bound then some n else none
    | none => none

def integer? (bound : Nat) (cs : List Char) : Option Int :=
  match cs with
  | '-' :: rest =>
    if rest.isEmpty then none
    else match digitsFrom (bound + 1) 0 rest with
      | some n => if n ≤ bound then some (-(n : Int)) else none
      | none => none
  | _ => (natural? bound cs).map Int.ofNat

def decimalFrom (n : Nat) : List Char → Option Nat
  | [] => some n
  | c :: cs =>
    match digit? c with
    | some d => decimalFrom (10 * n + d) cs
    | none => none

def decimal? (s : String) : Option Nat := if s.isEmpty then none else decimalFrom 0 s.toList

def signed? (s : String) : Option Int :=
  match s.toList with
  | '-' :: rest => (decimal? (String.ofList rest)).map fun n => -(n : Int)
  | _ => (decimal? s).map Int.ofNat

end HelperHandoff.Text
