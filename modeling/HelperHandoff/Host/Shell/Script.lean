set_option autoImplicit false

namespace HelperHandoff.Host.Shell

/-- What is done to the value of a parameter. Where a colon may stand, it makes an empty value
count as a missing one. -/
inductive Change where
  | plain
  | length
  | orDefault (colon : Bool)
  | orAssign (colon : Bool)
  | orComplain (colon : Bool)
  | ifPresent (colon : Bool)
  | trimFront (longest : Bool)
  | trimBack (longest : Bool)
  | unknown
  deriving DecidableEq, Repr

def Change.needsValue : Change → Bool
  | .plain | .length | .trimFront _ | .trimBack _ => true
  | _ => false

inductive Direction where
  | input
  | output (always : Bool)
  | append
  | update
  | copy
  | text
  deriving DecidableEq, Repr

mutual

inductive Piece where
  | text (s : String) (quoted : Bool)
  | parameter (name : String) (change : Change) (argument : List Piece) (quoted : Bool)
  | output (script : Script) (quoted : Bool)
  | sum (expression : List Piece) (quoted : Bool)

inductive Redirection where
  | mk (descriptor : Nat) (direction : Direction) (target : List Piece)

/-- What commands are made of. Where a line is given, it is that of the text on which the command
begins, and complaints name it. -/
inductive Script where
  | nothing
  | simple (line : Nat) (assignments : List (String × List Piece)) (words : List (List Piece))
      (redirections : List Redirection)
  | sequence (first second : Script)
  | both (first second : Script)
  | either (first second : Script)
  | negation (body : Script)
  | pipeline (parts : List Script)
  | background (body : Script)
  /-- A part of its own, with redirections that it follows itself. -/
  | subshell (line : Nat) (body : Script) (redirections : List Redirection)
  | redirected (line : Nat) (body : Script) (redirections : List Redirection)
  | conditional (test yes : Script) (no? : Option Script)
  | loop (whileFails : Bool) (test body : Script)
  | each (line : Nat) (name : String) (words? : Option (List (List Piece))) (body : Script)
  | choice (line : Nat) (word : List Piece) (arms : List (List (List Piece) × Script))
  | define (name : String) (body : Script)

end

abbrev Word := List Piece

def Redirection.descriptor : Redirection → Nat
  | .mk n _ _ => n

instance : Inhabited Script := ⟨.nothing⟩

def isSpacing (c : Char) : Bool := c == ' ' || ('\t' ≤ c && c ≤ '\r')

def isNameStart (c : Char) : Bool := c.isAlpha || c == '_'
def isNamePart (c : Char) : Bool := c.isAlphanum || c == '_'

def isName (s : String) : Bool :=
  s.toList.head?.any isNameStart && s.toList.all isNamePart

namespace Word

def bare? : Word → Option String
  | [] => none
  | [.text s false] => some s
  | _ => none

def unquoted (w : Word) : String :=
  String.join <| w.map fun p =>
    match p with
    | .text s _ => s
    | _ => ""

def hasQuotes (w : Word) : Bool :=
  w.any fun p =>
    match p with
    | .text _ quoted | .parameter _ _ _ quoted | .output _ quoted | .sum _ quoted => quoted

/-- Neighbouring texts made one. An empty quoted text stays when it stands alone. -/
def joined : Word → Word
  | [] => []
  | p :: rest =>
    match p, joined rest with
    | .text s q, .text t r :: more =>
      if q == r then .text (s ++ t) q :: more else .text s q :: .text t r :: more
    | p, more => p :: more

end Word

end HelperHandoff.Host.Shell
