import HelperHandoff.Host.Shell.Script

set_option autoImplicit false

namespace HelperHandoff.Host.Shell.Arithmetic

inductive Token where
  | number (n : Int)
  | name (s : String)
  | operator (s : String)
  | stray
  deriving DecidableEq, Repr

def wrap (n : Int) : Int := (Int64.ofInt n).toInt

def digitValue (c : Char) : Nat :=
  if c.isDigit then c.toNat - '0'.toNat
  else if 'a' ≤ c && c ≤ 'f' then c.toNat - 'a'.toNat + 10
  else if 'A' ≤ c && c ≤ 'F' then c.toNat - 'A'.toNat + 10
  else 36

def digitsOf (base : Nat) (cs : List Char) : List Char := cs.takeWhile (digitValue · < base)

def valueOfDigits (base : Nat) (cs : List Char) : Nat :=
  cs.foldl (fun n c => base * n + digitValue c) 0

/-- The number at the front of a text that begins with a digit, and what follows. A leading zero
makes it octal, one with an x hexadecimal. -/
def leadingDigits (cs : List Char) : Nat × List Char :=
  match cs with
  | '0' :: x :: rest =>
    if (x == 'x' || x == 'X') && !(digitsOf 16 rest).isEmpty then
      let ds := digitsOf 16 rest
      (valueOfDigits 16 ds, rest.drop ds.length)
    else
      let ds := digitsOf 8 cs
      (valueOfDigits 8 ds, cs.drop ds.length)
  | _ =>
    let ds := digitsOf 10 cs
    (valueOfDigits 10 ds, cs.drop ds.length)

def leadingNumber (cs : List Char) : Int × List Char :=
  let (n, rest) := leadingDigits cs
  (min (Int.pow 2 63 - 1) n, rest)

def numberOf? (s : String) : Option Int :=
  let cs := (s.toList.dropWhile isSpacing)
  let (negative, body) := match cs with
    | '-' :: rest => (true, rest)
    | '+' :: rest => (false, rest)
    | _ => (false, cs)
  if cs.isEmpty then some 0
  else if !body.head?.any Char.isDigit then none
  else
    let (n, rest) := leadingNumber body
    if rest.all isSpacing then some (if negative then -n else n) else none

def operators : List String :=
  ["<=", ">=", "==", "!=", "&&", "||", "+", "-", "*", "/", "%", "<", ">", "!", "(", ")"]

def tokens : Nat → List Char → List Token → List Token
  | 0, _, found => found.reverse
  | _ + 1, [], found => found.reverse
  | fuel + 1, c :: cs, found =>
    if c == ' ' || c == '\t' || c == '\n' then tokens fuel cs found
    else if c.isDigit then
      let (n, rest) := leadingNumber (c :: cs)
      tokens fuel rest (.number n :: found)
    else if isNameStart c then
      let name := (c :: cs).takeWhile isNamePart
      tokens fuel ((c :: cs).drop name.length) (.name (String.ofList name) :: found)
    else
      match operators.find? fun s => s.toList.isPrefixOf (c :: cs) with
      | some s => tokens fuel ((c :: cs).drop s.length) (.operator s :: found)
      | none => (.stray :: found).reverse

abbrev M := ReaderT (String → Except String Int) (StateT (List Token) (Except String))

def peek? : M (Option Token) := do return (← get).head?
def skip : M Unit := modify List.tail

def accept (mark : String) : M Bool := do
  if (← peek?) == some (.operator mark) then
    skip
    return true
  else return false

def valueOf (name : String) : M Int := do
  match (← read) name with
  | .ok n => return n
  | .error e => throw e

def tightness? (s : String) : Option Nat :=
  match s with
  | "||" => some 0
  | "&&" => some 1
  | "==" | "!=" => some 2
  | "<" | ">" | "<=" | ">=" => some 3
  | "+" | "-" => some 4
  | "*" | "/" | "%" => some 5
  | _ => none

def truth (b : Bool) : Int := if b then 1 else 0

/-- The result of an operator, which in a part that is not carried out is of no matter. -/
def apply (skipped : Bool) (s : String) (m n : Int) : M Int := do
  match s with
  | "+" => return wrap (m + n)
  | "-" => return wrap (m - n)
  | "*" => return wrap (m * n)
  | "/" | "%" =>
    if n == 0 then
      if skipped then return 0 else throw "division by zero"
    else return wrap (if s == "/" then m.tdiv n else m.tmod n)
  | "<" => return truth (m < n)
  | ">" => return truth (n < m)
  | "<=" => return truth (m ≤ n)
  | ">=" => return truth (n ≤ m)
  | "==" => return truth (m == n)
  | "!=" => return truth (m != n)
  | _ => return n

mutual

/-- A value whose operators bind at least as tightly as a level: 6 takes in signs only. -/
def value : Nat → Nat → Bool → M Int
  | 0, _, _ => throw "expression too long"
  | fuel + 1, level, skipped => do
    if level ≤ 5 then
      let first ← value fuel (level + 1) skipped
      operands fuel level skipped first
    else
      match ← peek? with
      | some (.number n) =>
        skip
        return n
      | some (.name s) =>
        skip
        if skipped then return 0 else valueOf s
      | some (.operator "(") =>
        skip
        let n ← value fuel 0 skipped
        unless ← accept ")" do throw "expecting ')'"
        return n
      | some (.operator "!") =>
        skip
        return truth ((← value fuel 6 skipped) == 0)
      | some (.operator "-") =>
        skip
        return wrap (-(← value fuel 6 skipped))
      | some (.operator "+") =>
        skip
        value fuel 6 skipped
      | _ => throw "expecting primary"

def operands : Nat → Nat → Bool → Int → M Int
  | 0, _, _, _ => throw "expression too long"
  | fuel + 1, level, skipped, first => do
    match ← peek? with
    | some (.operator o) =>
      if tightness? o == some level then
        skip
        match o with
        | "&&" =>
          let n ← value fuel (level + 1) (skipped || first == 0)
          operands fuel level skipped (truth (first != 0 && n != 0))
        | "||" =>
          let n ← value fuel (level + 1) (skipped || first != 0)
          operands fuel level skipped (truth (first != 0 || n != 0))
        | _ =>
          let n ← value fuel (level + 1) skipped
          operands fuel level skipped (← apply skipped o first n)
      else return first
    | _ => return first

end

def evaluate (look : String → Except String Int) (text : String) : Except String Int :=
  let cs := text.toList
  let ts := tokens (cs.length + 1) cs []
  match ((value (8 * ts.length + 8) 0 false).run look).run ts with
  | .error e => .error e
  | .ok (n, rest) => if rest.isEmpty then .ok n else .error "expecting EOF"

end HelperHandoff.Host.Shell.Arithmetic
