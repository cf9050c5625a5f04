import HelperHandoff.Bytes

set_option autoImplicit false

namespace HelperHandoff.Path

open Bytes (slash dot)

inductive Anchor where
  | root
  | here
  | none
  deriving DecidableEq, Repr

def Anchor.bytes : Anchor → Bytes
  | .root => [slash]
  | .here => [dot]
  | .none => []

/-- Splits off the anchor; the fields of the rest are what stands between slashes. -/
def anchored (p : Bytes) : Anchor × List Bytes :=
  match p with
  | [] => (.none, [])
  | b :: rest =>
    if b = slash then (.root, Bytes.fields slash rest)
    else if b = dot ∧ rest.isEmpty then (.here, [])
    else if b = dot ∧ rest.head? = some slash then (.here, Bytes.fields slash rest)
    else (.none, Bytes.fields slash p)

def isEmptyField (f : Bytes) : Bool := f.isEmpty || f == [dot]

def dropEmptyEnd (fs : List Bytes) : List Bytes := (fs.reverse.dropWhile isEmptyField).reverse

def isAbsolute (p : Bytes) : Bool := p.head? == some slash

def parent? (p : Bytes) : Option Bytes :=
  let (anchor, fs) := anchored p
  match dropEmptyEnd fs with
  | [] => if anchor = .here then some [] else none
  | named => some (anchor.bytes ++ Bytes.unfields slash (dropEmptyEnd named.dropLast))

/-- The last component, unless it is a root, a leading dot or two dots. -/
def fileName? (p : Bytes) : Option Bytes :=
  match (dropEmptyEnd (anchored p).2).getLast? with
  | some f => if f = [dot, dot] then none else some f
  | none => none

/-- `q` seen from `p`: an absolute `q` stands alone, any other follows `p` after one slash. -/
def join (p q : Bytes) : Bytes :=
  if isAbsolute q then q
  else if p.isEmpty ∨ p.getLast? = some slash then p ++ q
  else p ++ slash :: q

end HelperHandoff.Path
