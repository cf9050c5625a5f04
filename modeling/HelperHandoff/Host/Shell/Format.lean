import HelperHandoff.Host.Shell.Arithmetic

set_option autoImplicit false

namespace HelperHandoff.Host.Shell.Format

def isOctal (c : Char) : Bool := '0' ≤ c && c ≤ '7'

def byteChar (n : Nat) : Char := Char.ofNat (n % 256)

def escape (cs : List Char) : Char × List Char :=
  match cs with
  | 'a' :: rest => ('\x07', rest)
  | 'b' :: rest => ('\x08', rest)
  | 'e' :: rest => ('\x1b', rest)
  | 'f' :: rest => ('\x0c', rest)
  | 'n' :: rest => ('\n', rest)
  | 'r' :: rest => ('\x0d', rest)
  | 't' :: rest => ('\t', rest)
  | 'v' :: rest => ('\x0b', rest)
  | '\\' :: rest => ('\\', rest)
  | c :: _ =>
    if isOctal c then
      let digits := (cs.take 3).takeWhile isOctal
      (byteChar (digits.foldl (fun n d => 8 * n + Arithmetic.digitValue d) 0),
        cs.drop digits.length)
    else ('\\', cs)
  | [] => ('\\', [])

/-- A text with its escapes, latest character first, and whether it goes on after this text. One
escape ends all output. -/
def escaped : Nat → List Char → List Char → List Char × Bool
  | 0, _, found => (found, true)
  | _ + 1, [], found => (found, true)
  | _ + 1, '\\' :: 'c' :: _, found => (found, false)
  | fuel + 1, '\\' :: '0' :: rest, found =>
    let digits := (rest.take 3).takeWhile isOctal
    let n := digits.foldl (fun n d => 8 * n + Arithmetic.digitValue d) 0
    escaped fuel (rest.drop digits.length) (byteChar n :: found)
  | fuel + 1, '\\' :: rest, found =>
    let (c, after) := escape rest
    escaped fuel after (c :: found)
  | fuel + 1, c :: rest, found => escaped fuel rest (c :: found)

def unescape (s : String) : String × Bool :=
  let cs := s.toList
  let (found, more) := escaped (cs.length + 1) cs []
  (String.ofList found.reverse, more)

def echoed (escapes : Bool) (args : List String) : String :=
  let (line, words) := match args with
    | "-n" :: rest => (false, rest)
    | _ => (true, args)
  let text := " ".intercalate words
  if escapes then
    let (s, more) := unescape text
    if line && more then s ++ "\n" else s
  else if line then text ++ "\n" else text

structure Layout where
  left : Bool
  zeros : Bool
  width : Nat
  precision? : Option Nat

def padded (l : Layout) (zeros : Bool) (sign body : String) : String :=
  let missing := l.width - (sign.length + body.length)
  let fill (c : Char) : String := String.ofList (List.replicate missing c)
  if l.left then sign ++ body ++ fill ' '
  else if zeros then sign ++ fill '0' ++ body
  else fill ' ' ++ sign ++ body

def digitChar (upper : Bool) (n : Nat) : Char :=
  if n < 10 then Char.ofNat ('0'.toNat + n)
  else Char.ofNat ((if upper then 'A'.toNat else 'a'.toNat) + n - 10)

def digits (base : Nat) (upper : Bool) : Nat → Nat → List Char → List Char
  | 0, _, found => found
  | fuel + 1, n, found =>
    let found := digitChar upper (n % base) :: found
    if n < base then found else digits base upper fuel (n / base) found

def inBase (base : Nat) (upper : Bool) (n : Nat) : String :=
  String.ofList (digits base upper 80 n [])

def withPrecision (l : Layout) (s : String) : String :=
  match l.precision? with
  | none => s
  | some p =>
    if p == 0 && s == "0" then ""
    else String.ofList (List.replicate (p - s.length) '0') ++ s

def integer (l : Layout) (kind : Char) (n : Int) : String :=
  let zeros := l.zeros && l.precision?.isNone
  if kind == 'd' || kind == 'i' then
    padded l zeros (if n < 0 then "-" else "") (withPrecision l (toString n.natAbs))
  else
    let m := (n % Int.pow 2 64).toNat
    let body := match kind with
      | 'o' => inBase 8 false m
      | 'x' => inBase 16 false m
      | 'X' => inBase 16 true m
      | _ => toString m
    padded l zeros "" (withPrecision l body)

def string (l : Layout) (s : String) : String :=
  padded l false "" (match l.precision? with
    | some p => String.ofList (s.toList.take p)
    | none => s)

/-- What a format writes, with the complaints on the way. -/
structure Output where
  found : List String
  complaints : List String
  broken : Bool
  args : List String
  takes : Bool
  more : Bool

namespace Output

def put (o : Output) (s : String) : Output := { o with found := s :: o.found }

def argument (o : Output) : Option String × Output :=
  (o.args.head?, { o with args := o.args.tail, takes := true })

def number (o : Output) : Int × Output :=
  match o.argument with
  | (none, o) => (0, o)
  | (some s, o) =>
    match s.toList with
    | '"' :: rest | '\x27' :: rest => ((rest.head?.elim 0 Char.toNat : Nat), o)
    | cs =>
      let body := cs.dropWhile isSpacing
      let (negative, body) := match body with
        | '-' :: rest => (true, rest)
        | '+' :: rest => (false, rest)
        | _ => (false, body)
      let complain (text : String) : Output :=
        { o with complaints := o.complaints ++ [s ++ ": " ++ text] }
      if cs.isEmpty then (0, o)
      else if !body.head?.any Char.isDigit then (0, complain "expected numeric value")
      else
        let (m, rest) := Arithmetic.leadingDigits body
        let n : Int := if negative then -m else m
        (n, if rest.isEmpty then o else complain "not completely converted")

end Output

def layout (cs : List Char) : Layout × List Char :=
  let size (cs : List Char) : Option Nat × List Char :=
    let ds := cs.takeWhile Char.isDigit
    (if ds.isEmpty then none else some (Arithmetic.valueOfDigits 10 ds), cs.drop ds.length)
  let flags := cs.takeWhile "-0".toList.contains
  let (width?, cs) := size (cs.drop flags.length)
  let (precision?, cs) : Option Nat × List Char := match cs with
    | '.' :: rest =>
      let (n?, rest) := size rest
      (some (n?.getD 0), rest)
    | _ => (none, cs)
  ({ left := flags.contains '-'
     zeros := flags.contains '0'
     width := width?.getD 0
     precision? := precision? }, cs)

def once : Nat → List Char → Output → Output
  | 0, _, o => o
  | _ + 1, [], o => o
  | fuel + 1, '%' :: '%' :: rest, o => once fuel rest (o.put "%")
  | fuel + 1, '%' :: place, o =>
    let (l, rest) := layout place
    match rest with
    | [] =>
      { o with
        complaints := o.complaints ++ ["missing format character"]
        broken := true
        more := false }
    | kind :: rest =>
      match kind with
      | 's' =>
        let (s?, o) := o.argument
        once fuel rest (o.put (string l (s?.getD "")))
      | 'b' =>
        let (s?, o) := o.argument
        let (s, more) := unescape (s?.getD "")
        let o := o.put (string l s)
        if more then once fuel rest o else { o with more := false }
      | 'c' =>
        let (s?, o) := o.argument
        let c := String.ofList ((s?.getD "").toList.take 1)
        once fuel rest (o.put (padded l false "" c))
      | 'd' | 'i' | 'o' | 'u' | 'x' | 'X' =>
        let (n, o) := o.number
        once fuel rest (o.put (integer l kind n))
      | _ =>
        { o with
          complaints := o.complaints ++
            ["%" ++ String.ofList (place.take (place.length - rest.length)) ++
              ": invalid directive"]
          broken := true
          more := false }
  | fuel + 1, '\\' :: rest, o =>
    let (c, after) := escape rest
    once fuel after (o.put (String.singleton c))
  | fuel + 1, c :: rest, o => once fuel rest (o.put (String.singleton c))

def again (format : List Char) : Nat → Output → Output
  | 0, o => o
  | fuel + 1, o =>
    let o := once (format.length + 1) format { o with takes := false }
    if o.more && o.takes && !o.args.isEmpty then again format fuel o else o

def Output.text (o : Output) : String := String.join o.found.reverse

def print (format : String) (args : List String) : Output :=
  again format.toList (args.length + 1) ⟨[], [], false, args, false, true⟩

end HelperHandoff.Host.Shell.Format
