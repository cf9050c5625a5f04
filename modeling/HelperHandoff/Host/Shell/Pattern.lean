set_option autoImplicit false

namespace HelperHandoff.Host.Shell

/-- Where a character comes from. -/
inductive Ink where
  | plain
  | value
  | quoted
  deriving DecidableEq, Repr

abbrev Glyph := Char × Ink

inductive Atom where
  | char (c : Char)
  | one
  | any
  | set (negated : Bool) (ranges : List (Char × Char))
  deriving DecidableEq, Repr

abbrev Pattern := List Atom

namespace Atom

def admits (c : Char) : Atom → Bool
  | .char d => c == d
  | .one => true
  | .any => true
  | .set negated ranges => (ranges.any fun r => r.1 ≤ c && c ≤ r.2) != negated

def ranges? : Nat → Bool → List (Char × Char) → List Glyph →
    Option (List (Char × Char) × List Glyph)
  | 0, _, _, _ => none
  | fuel + 1, first, found, gs =>
    match gs with
    | [] => none
    | (c, ink) :: rest =>
      if c == ']' && ink != Ink.quoted && !first then some (found, rest)
      else
        match rest with
        | ('-', .plain) :: (d, dInk) :: more | ('-', .value) :: (d, dInk) :: more =>
          if d == ']' && dInk != Ink.quoted then ranges? fuel false ((c, c) :: found) rest
          else ranges? fuel false ((c, d) :: found) more
        | _ => ranges? fuel false ((c, c) :: found) rest

end Atom

namespace Pattern

/-- The pattern that a text with its quotes stands for. Brackets that are never closed stand for
themselves; a backslash that comes from a value quotes what follows it. -/
def ofGlyphs : Nat → List Glyph → Pattern
  | 0, _ => []
  | _ + 1, [] => []
  | fuel + 1, (c, ink) :: rest =>
    if ink == Ink.quoted then .char c :: ofGlyphs fuel rest
    else
      match c with
      | '*' => .any :: ofGlyphs fuel rest
      | '?' => .one :: ofGlyphs fuel rest
      | '[' =>
        let (negated, inside) := match rest with
          | ('!', i) :: more => if i == Ink.quoted then (false, rest) else (true, more)
          | _ => (false, rest)
        match Atom.ranges? (inside.length + 1) true [] inside with
        | some (ranges, after) => .set negated ranges :: ofGlyphs fuel after
        | none => .char c :: ofGlyphs fuel rest
      | '\\' =>
        match ink, rest with
        | .value, (d, _) :: more => .char d :: ofGlyphs fuel more
        | _, _ => .char c :: ofGlyphs fuel rest
      | _ => .char c :: ofGlyphs fuel rest

def read (gs : List Glyph) : Pattern := ofGlyphs (gs.length + 1) gs

def isActive (p : Pattern) : Bool :=
  p.any fun a =>
    match a with
    | .char _ => false
    | _ => true

def accepts (p : Pattern) (cs : List Char) : Bool :=
  match p, cs with
  | [], cs => cs.isEmpty
  | .any :: rest, [] => accepts rest []
  | .any :: rest, c :: cs => accepts rest (c :: cs) || accepts (.any :: rest) cs
  | _ :: _, [] => false
  | a :: rest, c :: cs => a.admits c && accepts rest cs
termination_by p.length + cs.length

def acceptsText (p : Pattern) (s : String) : Bool := p.accepts s.toList

def trim (p : Pattern) (front longest : Bool) (s : String) : String :=
  let cs := s.toList
  let lengths := List.range (cs.length + 1)
  let fits := lengths.filter fun n =>
    p.accepts (if front then cs.take n else cs.drop (cs.length - n))
  match (if longest then fits.getLast? else fits.head?) with
  | none => s
  | some n => String.ofList (if front then cs.drop n else cs.take (cs.length - n))

end Pattern

end HelperHandoff.Host.Shell
