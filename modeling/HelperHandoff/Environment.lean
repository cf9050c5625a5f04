import HelperHandoff.Bytes

/-!
The environment of a process: a list of raw entries. Three readings of it stand here. `split`
takes an entry apart at its first equals sign after byte 0, so a leading equals sign belongs to
the name. `pairs` enumerates, passing over entries without such a sign. `lookup` finds the value
of one name in the first entry that starts with the name and an equals sign.
-/

set_option autoImplicit false

namespace HelperHandoff.Environment

open Bytes (equalsSign)

/-- Name and value of an entry; an entry without a separator is all name. -/
def split : Bytes → Bytes × Bytes
  | [] => ([], [])
  | b :: rest =>
    (b :: rest.takeWhile (· ≠ equalsSign), (rest.dropWhile (· ≠ equalsSign)).drop 1)

/-- The separator is looked for after byte 0. -/
def hasSeparator (entry : Bytes) : Bool := (entry.drop 1).contains equalsSign

def join (name value : Bytes) : Bytes := name ++ equalsSign :: value

/-- What enumeration yields, in order, duplicates kept. -/
def pairs (entries : List Bytes) : List (Bytes × Bytes) :=
  (entries.filter hasSeparator).map split

/-- The value of a name, by the first entry that has it. -/
def lookup (name : Bytes) (entries : List Bytes) : Option Bytes :=
  entries.findSome? (List.isPrefixOf? (name ++ [equalsSign]))

def render (ps : List (Bytes × Bytes)) : List Bytes := ps.map fun p => join p.1 p.2

end HelperHandoff.Environment
