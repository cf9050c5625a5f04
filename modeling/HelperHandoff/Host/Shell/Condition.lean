import HelperHandoff.Host.Shell.Descriptor

set_option autoImplicit false

namespace HelperHandoff.Host.Shell.Condition

inductive Fault where
  | missingArgument (operator : String)
  | unexpectedOperator (word : String)
  | illegalNumber (word : String)
  | unclosed
  deriving DecidableEq, Repr

def Fault.text : Fault → String
  | .missingArgument o => o ++ ": argument expected"
  | .unexpectedOperator w => (if w.isEmpty then "" else w ++ ": ") ++ "unexpected operator"
  | .illegalNumber w => "Illegal number: " ++ w
  | .unclosed => "closing paren expected"

def unaries : List String :=
  ["-c", "-d", "-e", "-f", "-h", "-L", "-n", "-p", "-r", "-s", "-S", "-t", "-w", "-x", "-z"]

def binaries : List String :=
  ["=", "!=", "-eq", "-ne", "-lt", "-le", "-gt", "-ge", "-ef"]

inductive Role where
  | unary
  | binary
  | and
  | or
  | not
  | opening
  | closing
  | operand
  | done
  deriving DecidableEq, Repr

def bareRole (w : String) : Role :=
  if unaries.contains w then .unary
  else if binaries.contains w then .binary
  else
    match w with
    | "-a" => .and
    | "-o" => .or
    | "!" => .not
    | "(" => .opening
    | ")" => .closing
    | _ => .operand

/-- A word that could be an operator of one operand is none if nothing follows it, or if the word
after it joins it to another. -/
def role : List String → Role
  | [] => .done
  | w :: rest =>
    match bareRole w with
    | .unary =>
      match rest with
      | [] => .operand
      | [_] => .unary
      | o :: _ => if bareRole o == .binary then .operand else .unary
    | .opening => if rest.isEmpty then .operand else .opening
    | r => r

def number (w : String) : Except Fault Int :=
  let cs := w.toList.dropWhile isSpacing
  let (negative, body) := match cs with
    | '-' :: rest => (true, rest)
    | '+' :: rest => (false, rest)
    | _ => (false, cs)
  let digits := body.takeWhile Char.isDigit
  if digits.isEmpty || !(body.drop digits.length).all isSpacing then
    .error (.illegalNumber w)
  else
    let n : Int := (Text.decimal? (String.ofList digits)).getD 0
    let n := if negative then -n else n
    if -Int.pow 2 63 ≤ n && n < Int.pow 2 63 then .ok n else .error (.illegalNumber w)

abbrev M := ExceptT Fault Sh

def isKind (n? : Option Node) (kind : Node → Bool) : Bool := n?.any kind

def fileOf? (path : String) : Sh (Option File) := do
  match ← Sh.resolve path with
  | .ok l => Sh.fileAt l
  | .error _ => return none

def isExecutable (f : File) : Bool := f.node.isDirectory || f.mode &&& 0o111 != 0

def isPipe (path : String) : Sh Bool := do
  match ← Sh.resolve path with
  | .ok l => return (Sh.pipeAt? l).isSome
  | .error _ => return false

def unary (operator operand : String) : M Bool := do
  let node? : Sh (Option Node) := Sh.node? operand
  match operator with
  | "-n" => return !operand.isEmpty
  | "-z" => return operand.isEmpty
  | "-t" =>
    let _ ← (number operand : Except Fault Int)
    return false
  | "-e" | "-r" | "-w" => return (← node?).isSome
  | "-f" => return isKind (← node?) Node.isFile
  | "-d" => return isKind (← node?) Node.isDirectory
  | "-h" | "-L" =>
    return isKind (← Sh.linkNode? operand) fun n =>
      match n with
      | .link _ => true
      | _ => false
  | "-S" =>
    return isKind (← node?) fun n =>
      match n with
      | .socket _ => true
      | _ => false
  | "-c" =>
    if ← isPipe operand then return false else return isKind (← node?) (· == .device)
  | "-p" => return ← isPipe operand
  | "-s" =>
    return isKind (← node?) fun n =>
      match n with
      | .file c => !c.isEmpty
      | .directory | .binary _ => true
      | _ => false
  | "-x" => return (← fileOf? operand).any isExecutable
  | _ => return false

def sameFile (a b : String) : Sh Bool := do
  match ← Sh.resolve a, ← Sh.resolve b with
  | .ok l, .ok m =>
    let t := (← Sh.host).tree
    return l == m || ((t.number? l).isSome && t.number? l == t.number? m)
  | _, _ => return false

def binary (operator a b : String) : M Bool := do
  let compare (f : Int → Int → Bool) : M Bool := do
    let m ← (number a : Except Fault Int)
    let n ← (number b : Except Fault Int)
    return f m n
  match operator with
  | "=" => return a == b
  | "!=" => return a != b
  | "-eq" => compare (· == ·)
  | "-ne" => compare (· != ·)
  | "-lt" => compare (· < ·)
  | "-le" => compare (· ≤ ·)
  | "-gt" => compare (· > ·)
  | "-ge" => compare (· ≥ ·)
  | "-ef" => sameFile a b
  | _ => return false

mutual

/-- Alternatives, from words whose first one has this role. The words that are given back begin
with the last one that was used. -/
def alternatives : Nat → Role → List String → M (Bool × List String)
  | 0, _, _ => throw .unclosed
  | fuel + 1, r, ws => do
    let (first, ws) ← conjunction fuel r ws
    if role ws.tail == .or then
      let rest := ws.drop 2
      let (more, ws) ← alternatives fuel (role rest) rest
      return (first || more, ws)
    else return (first, ws)

def conjunction : Nat → Role → List String → M (Bool × List String)
  | 0, _, _ => throw .unclosed
  | fuel + 1, r, ws => do
    let (first, ws) ← negation fuel r ws
    if role ws.tail == .and then
      let rest := ws.drop 2
      let (more, ws) ← conjunction fuel (role rest) rest
      return (first && more, ws)
    else return (first, ws)

def negation : Nat → Role → List String → M (Bool × List String)
  | 0, _, _ => throw .unclosed
  | fuel + 1, r, ws => do
    if r == .not then
      let next := role ws.tail
      let (b, ws) ← negation fuel next (if next == .done then ws else ws.tail)
      return (!b, ws)
    else primary fuel r ws

def primary : Nat → Role → List String → M (Bool × List String)
  | 0, _, _ => throw .unclosed
  | fuel + 1, r, ws => do
    match r with
    | .done => return (false, ws)
    | .opening =>
      let inside := ws.tail
      let next := role inside
      if next == .closing then return (false, inside)
      else
        let (b, ws) ← alternatives fuel next inside
        if role ws.tail == .closing then return (b, ws.tail) else throw .unclosed
    | .unary =>
      match ws with
      | o :: a :: rest => return (← unary o a, a :: rest)
      | o :: [] => throw (.missingArgument o)
      | [] => return (false, [])
    | _ =>
      match ws with
      | a :: o :: rest =>
        if role (o :: rest) == .binary then
          match rest with
          | b :: rest => return (← binary o a b, b :: rest)
          | [] => throw (.missingArgument o)
        else return (!a.isEmpty, ws)
      | [a] => return (!a.isEmpty, ws)
      | [] => return (false, [])

end

def holds (words : List String) : M Bool := do
  if words.isEmpty then return false
  else
    let count := words.length
    let isBinary := (words[1]?).any fun w => bareRole w == .binary
    let (r, ws) :=
      if count == 3 && isBinary then (Role.operand, words)
      else if count == 3 || count == 4 then
        if words.head? == some "(" && words.getLast? == some ")" then
          let inside := words.tail.dropLast
          (role inside, inside)
        else if words.head? == some "!" then (Role.not, words)
        else (role words, words)
      else (role words, words)
    let (b, rest) ← alternatives (8 * words.length + 16) r ws
    match rest with
    | w :: _ :: _ => throw (.unexpectedOperator w)
    | _ => return b

end HelperHandoff.Host.Shell.Condition
