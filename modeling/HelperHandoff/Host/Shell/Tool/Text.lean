import HelperHandoff.Host.Shell.Format
import HelperHandoff.Host.Shell.Pattern
import HelperHandoff.Host.Shell.Tool.Options

set_option autoImplicit false

namespace HelperHandoff.Host.Shell.Tool

/-- Reads a descriptor piece by piece and writes what is made of each piece, until the consumer has
had enough or nobody takes it any more. -/
def pass {σ : Type} (n size : Nat) (step : σ → Bytes → σ × Bytes × Bool) (start : σ) :
    Sh (Except Errno σ) := do
  let consume (state : σ) (b : Bytes) : Sh (σ × Bool) := do
    let (state, made, more) := step state b
    Sh.outBytes made
    return (state, more && (← Sh.process).outputFault?.isNone)
  Sh.feed n size consume Sh.mostReadings start

def eachInput {α : Type} (t : Tool) (o : Options) (use : Nat → Sh (Except Errno α)) : Sh Nat :=
  t.forEach o.inputs fun operand => do
    match ← withInput operand use with
    | .ok _ => return none
    | .error e => return some (unread operand e)

def cat (t : Tool) : Sh Nat :=
  t.withOptions ⟨"u", ""⟩ false 1 fun o =>
    t.eachInput o fun n => pass n Sh.pieceSize (fun u b => (u, b, true)) ()

def frontPiece : Nat := 8192

def firstLines : Nat → Bytes → Bytes × Nat
  | 0, _ => ([], 0)
  | n + 1, [] => ([], n + 1)
  | n + 1, b :: rest =>
    let (found, left) := firstLines (if b == 10 then n else n + 1) rest
    (b :: found, left)

def modernArgs : List String → List String
  | w :: rest =>
    match w.toList with
    | '-' :: c :: cs =>
      if (c :: cs).all Char.isDigit then "-n" :: String.ofList (c :: cs) :: rest else w :: rest
    | _ => w :: rest
  | [] => []

def head (t : Tool) : Sh Nat :=
  { t with args := modernArgs t.args }.withOptions ⟨"", "nc"⟩ false 1 fun o => do
    let given := ((o.value? 'c').orElse fun _ => o.value? 'n').getD "10"
    match Text.decimal? given with
    | none =>
      t.say ("invalid number of lines: " ++ inQuotes given)
      return 1
    | some count =>
      let bytes (left : Nat) (b : Bytes) : Bytes × Nat := (b.take left, left - b.length)
      let step (left : Nat) (b : Bytes) : Nat × Bytes × Bool :=
        let (found, left) := if o.has 'c' then bytes left b else firstLines left b
        (left, found, left != 0)
      t.eachInput o fun n =>
        if count == 0 then return .ok 0 else pass n frontPiece step count

def countWords (s : String) : Nat :=
  (s.toList.foldl (fun (n, inside) c =>
    if isSpacing c then (n, false) else (if inside then n else n + 1, true))
    ((0, false) : Nat × Bool)).1

def padLeft (n : Nat) (s : String) : String :=
  String.ofList (List.replicate (n - s.length) ' ') ++ s

def wc (t : Tool) : Sh Nat :=
  t.withOptions ⟨"lwc", ""⟩ false 1 fun o => do
    let (s, status) ← t.allInput o 1
    let wanted (c : Char) : Bool := o.given.isEmpty || o.has c
    let counts := [('l', s.toList.count '\n'), ('w', countWords s), ('c', s.length)].filter
      fun p => wanted p.1
    let width := if counts.length == 1 then 1
      else if o.operands.isEmpty then 7 else (toString s.length).length
    let names := o.operands.take 1
    unless status != 0 do
      Sh.out (" ".intercalate (counts.map (fun p => padLeft width (toString p.2)) ++ names) ++ "\n")
    return status

def sort (t : Tool) : Sh Nat :=
  t.withOptions ⟨"rnu", ""⟩ false 2 fun o => do
    let (s, status) ← t.allInput o 2
    let value (l : String) : Nat :=
      (Text.decimal? (String.ofList (l.toList.takeWhile Char.isDigit))).getD 0
    let order (a b : String) : Ordering :=
      let c := if o.has 'n' then (compare (value a) (value b)).then (compare a b) else compare a b
      if o.has 'r' then c.swap else c
    let ls := (linesOf s).mergeSort fun a b => order a b != .gt
    unless status != 0 do Sh.out (unlines (if o.has 'u' then ls.eraseDups else ls))
    return status

/-- A text that lines are looked through for: whether it has to stand at the front or at the end,
and characters, some of which stand for any. -/
structure Sought where
  atFront : Bool
  atEnd : Bool
  body : Pattern

namespace Sought

def atoms : List Char → Pattern
  | '.' :: '*' :: cs => .any :: atoms cs
  | '.' :: cs => .one :: atoms cs
  | '\\' :: c :: cs => .char c :: atoms cs
  | c :: cs => .char c :: atoms cs
  | [] => []

def read (s : String) : Sought :=
  let cs := s.toList
  let (front, cs) := match cs with
    | '^' :: rest => (true, rest)
    | _ => (false, cs)
  let (back, cs) := match cs.reverse with
    | '$' :: rest => (true, rest.reverse)
    | _ => (false, cs)
  ⟨front, back, atoms cs⟩

def isIn (x : Sought) (line : String) : Bool :=
  Pattern.acceptsText ((if x.atFront then [] else [.any]) ++ x.body ++
    (if x.atEnd then [] else [.any])) line

end Sought

def grep (t : Tool) : Sh Nat :=
  t.withOptions ⟨"vcqs", "e"⟩ false 2 fun o => do
    let (pattern?, operands) := match o.value? 'e', o.operands with
      | some p, rest => (some p, rest)
      | none, p :: rest => (some p, rest)
      | none, [] => (none, [])
    match pattern? with
    | none => t.misused "missing pattern" 2
    | some p =>
      let (s, status) ← t.allInput { o with operands := operands } 2
      let picked := (linesOf s).filter fun l => (Sought.read p).isIn l != o.has 'v'
      unless o.has 'q' do
        Sh.out (if o.has 'c' then toString picked.length ++ "\n" else unlines picked)
      return if status != 0 then status else if picked.isEmpty then 1 else 0

def charSet : Nat → List Char → List Char
  | 0, _ => []
  | _ + 1, [] => []
  | fuel + 1, c :: cs =>
    let (first, rest) := if c == '\\' then Format.escape cs else (c, cs)
    match rest with
    | '-' :: last :: rest =>
      (List.range' first.toNat (last.toNat + 1 - first.toNat)).map Char.ofNat ++ charSet fuel rest
    | _ => first :: charSet fuel rest

def tr (t : Tool) : Sh Nat :=
  t.withOptions ⟨"d", ""⟩ true 1 fun o => do
    let sets := o.operands.map fun s => charSet (s.length + 1) s.toList
    match sets, o.has 'd' with
    | [set], true => translate fun c => if set.contains c then none else some c
    | [first, second], false =>
      translate fun c =>
        match first.idxOf? c with
        | none => some c
        | some i => (second[i]?).orElse fun _ => second.getLast?
    | _, _ => t.misused "missing operand" 1
where
  translate (change : Char → Option Char) : Sh Nat := do
    let step (_ : Unit) (b : Bytes) : Unit × Bytes × Bool :=
      ((), Latin1.encode (String.ofList ((Latin1.decode b).toList.filterMap change)), true)
    let _ ← pass 0 Sh.pieceSize step ()
    return 0

/-- The column that a program names which prints one column of each line, counted from one; the
whole line is column 0. -/
def column? (program : String) : Option Nat :=
  let bare := String.ofList (program.toList.filter fun c => !isSpacing c)
  if bare == "\x7bprint\x7d" then some 0
  else
    match bare.splitOn "$" with
    | ["\x7bprint", rest] =>
      if rest.toList.getLast? == some '\x7d' then
        Text.decimal? (String.ofList rest.toList.dropLast)
      else none
    | _ => none

def awk (t : Tool) : Sh Nat :=
  t.withOptions ⟨"", ""⟩ true 2 fun o => do
    match (o.operands.head?.getD "" |> column?) with
    | none => t.misused "syntax error" 2
    | some n =>
      let (s, status) ← t.allInput { o with operands := o.operands.tail } 2
      Sh.out (unlines ((linesOf s).map fun l =>
        if n == 0 then l
        else
          let words := (l.splitToList fun c => c == ' ' || c == '\t').filter (!·.isEmpty)
          (words[n - 1]?).getD ""))
      return status

end HelperHandoff.Host.Shell.Tool
