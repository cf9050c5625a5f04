import HelperHandoff.Host.Shell.Format

set_option autoImplicit false

namespace HelperHandoff.Host.Shell.Rights

def ofOctal? (cs : List Char) : Option Nat :=
  if cs.isEmpty || !cs.all Format.isOctal then none
  else some (cs.foldl (fun n c => 8 * n + Arithmetic.digitValue c) 0)

def octal (n : Nat) : String :=
  let digits := Nat.toDigits 8 n
  String.ofList (List.replicate (4 - digits.length) '0' ++ digits)

/-- The bits that a clause is about: with nobody named, those that the mask leaves. -/
def concerned (mask : Nat) (who : List Char) : Nat :=
  if who.isEmpty then 0o777 ^^^ mask
  else who.foldl (fun n c =>
    n ||| (if c == 'u' then 0o700 else if c == 'g' then 0o070 else if c == 'o' then 0o007
      else 0o777)) 0

def everywhere (cs : List Char) : Nat :=
  cs.foldl (fun n c => n ||| (if c == 'r' then 0o444 else if c == 'w' then 0o222 else 0o111)) 0

def changed? (mask held : Nat) (clause : List Char) : Option Nat :=
  let who := clause.takeWhile "augo".toList.contains
  match clause.drop who.length with
  | mark :: what =>
    let named := everywhere what &&& concerned mask who
    if !what.all "rwx".toList.contains then none
    else
      match mark with
      | '+' => some (held ||| named)
      | '-' => some (held &&& (0o777 ^^^ named))
      | '=' => some (named ||| (held &&& (0o777 ^^^ concerned 0 who)))
      | _ => none
  | [] => none

def ofMode? (mask held : Nat) (mode : String) : Option Nat :=
  match ofOctal? mode.toList with
  | some n => if n ≤ 0o7777 then some n else none
  | none =>
    (mode.splitOn ",").foldl (fun held? clause =>
      held?.bind fun held => changed? mask held clause.toList) (some held)

end HelperHandoff.Host.Shell.Rights
