import HelperHandoff.Json.Value

set_option autoImplicit false

namespace HelperHandoff.Json.Reader

def isBlank (c : Char) : Bool := c = ' ' || c = '\t' || c = '\n' || c = '\r'

def skipBlank (cs : List Char) : List Char := cs.dropWhile isBlank

def hexDigit? (c : Char) : Option Nat :=
  if '0' ≤ c ∧ c ≤ '9' then some (c.toNat - '0'.toNat)
  else if 'a' ≤ c ∧ c ≤ 'f' then some (c.toNat - 'a'.toNat + 10)
  else if 'A' ≤ c ∧ c ≤ 'F' then some (c.toNat - 'A'.toNat + 10)
  else none

def hexFour : List Char → Option (Nat × List Char)
  | a :: b :: c :: d :: rest =>
    match hexDigit? a, hexDigit? b, hexDigit? c, hexDigit? d with
    | some a, some b, some c, some d => some (((a * 16 + b) * 16 + c) * 16 + d, rest)
    | _, _, _, _ => none
  | _ => none

def isHigh (n : Nat) : Bool := 0xD800 ≤ n && n ≤ 0xDBFF

def isLow (n : Nat) : Bool := 0xDC00 ≤ n && n ≤ 0xDFFF

def unitEscape (cs : List Char) : Option (Char × List Char) :=
  match hexFour cs with
  | none => none
  | some (n, rest) =>
    if isLow n then none
    else if isHigh n then
      match rest with
      | '\\' :: 'u' :: rest =>
        match hexFour rest with
        | some (m, rest) =>
          if isLow m then some (Char.ofNat (0x10000 + (n - 0xD800) * 0x400 + (m - 0xDC00)), rest)
          else none
        | none => none
      | _ => none
    else some (Char.ofNat n, rest)

def escaped : List Char → Option (Char × List Char)
  | '"' :: rest => some ('"', rest)
  | '\\' :: rest => some ('\\', rest)
  | '/' :: rest => some ('/', rest)
  | 'b' :: rest => some ('\x08', rest)
  | 'f' :: rest => some ('\x0c', rest)
  | 'n' :: rest => some ('\n', rest)
  | 'r' :: rest => some ('\r', rest)
  | 't' :: rest => some ('\t', rest)
  | 'u' :: rest => unitEscape rest
  | _ => none

def stringBody (fuel : Nat) (found : List Char) (cs : List Char) : Option (String × List Char) :=
  match fuel, cs with
  | 0, _ => none
  | _, [] => none
  | fuel + 1, c :: rest =>
    if c = '"' then some (String.ofList found.reverse, rest)
    else if c = '\\' then
      match escaped rest with
      | some (d, rest) => stringBody fuel (d :: found) rest
      | none => none
    else if c.toNat < 0x20 then none
    else stringBody fuel (c :: found) rest

def isDigit (c : Char) : Bool := '0' ≤ c && c ≤ '9'

def digitsValue (n : Nat) (ds : List Char) : Nat :=
  ds.foldl (fun n d => 10 * n + (d.toNat - '0'.toNat)) n

def digits (cs : List Char) : Option (List Char × List Char) :=
  match cs.takeWhile isDigit with
  | [] => none
  | ds => some (ds, cs.dropWhile isDigit)

def wholePart (cs : List Char) : Option (List Char × List Char) :=
  match digits cs with
  | some ('0' :: _ :: _, _) => none
  | other => other

def fraction (cs : List Char) : Option (List Char × List Char) :=
  match cs with
  | '.' :: rest => digits rest
  | _ => some ([], cs)

def exponent (cs : List Char) : Option (Int × List Char) :=
  let signed (sign : Int) (cs : List Char) : Option (Int × List Char) :=
    (digits cs).map fun (ds, rest) => (sign * digitsValue 0 ds, rest)
  let after : List Char → Option (Int × List Char)
    | '+' :: rest => signed 1 rest
    | '-' :: rest => signed (-1) rest
    | rest => signed 1 rest
  match cs with
  | 'e' :: rest => after rest
  | 'E' :: rest => after rest
  | _ => some (0, cs)

def numeral (cs : List Char) : Option (Json × List Char) :=
  let (sign, body) : Int × List Char := match cs with
    | '-' :: rest => (-1, rest)
    | _ => (1, cs)
  match wholePart body with
  | none => none
  | some (whole, rest) =>
    match fraction rest with
    | none => none
    | some (part, rest) =>
      match exponent rest with
      | none => none
      | some (e, rest) =>
        some (.number (sign * digitsValue 0 (whole ++ part)) (e - part.length), rest)

/-- What stands at the front of a text, with the fuel that bounds the depth of the reading. -/
inductive Goal where
  | value
  | items (found : List Json)
  | members (found : List (String × Json))

def readGoal : Nat → Goal → List Char → Option (Json × List Char)
  | 0, _, _ => none
  | fuel + 1, .value, cs =>
    match skipBlank cs with
    | 'n' :: 'u' :: 'l' :: 'l' :: rest => some (.null, rest)
    | 't' :: 'r' :: 'u' :: 'e' :: rest => some (.bool true, rest)
    | 'f' :: 'a' :: 'l' :: 's' :: 'e' :: rest => some (.bool false, rest)
    | '"' :: rest => (stringBody fuel [] rest).map fun (s, rest) => (.string s, rest)
    | '[' :: rest =>
      match skipBlank rest with
      | ']' :: rest => some (.array [], rest)
      | rest => readGoal fuel (.items []) rest
    | '{' :: rest =>
      match skipBlank rest with
      | '}' :: rest => some (.object [], rest)
      | rest => readGoal fuel (.members []) rest
    | rest => numeral rest
  | fuel + 1, .items found, cs =>
    match readGoal fuel .value cs with
    | none => none
    | some (v, rest) =>
      match skipBlank rest with
      | ',' :: rest => readGoal fuel (.items (v :: found)) rest
      | ']' :: rest => some (.array (v :: found).reverse, rest)
      | _ => none
  | fuel + 1, .members found, cs =>
    match skipBlank cs with
    | '"' :: rest =>
      match stringBody fuel [] rest with
      | none => none
      | some (k, rest) =>
        match skipBlank rest with
        | ':' :: rest =>
          match readGoal fuel .value rest with
          | none => none
          | some (v, rest) =>
            match skipBlank rest with
            | ',' :: rest => readGoal fuel (.members ((k, v) :: found)) rest
            | '}' :: rest => some (.object ((k, v) :: found).reverse, rest)
            | _ => none
        | _ => none
    | _ => none

end HelperHandoff.Json.Reader

namespace HelperHandoff.Json

/-- The value at the front of a text, and what follows it. Each character takes two steps at most,
so there is always more fuel than text that is left. -/
def readPrefix? (cs : List Char) : Option (Json × List Char) :=
  Reader.readGoal (2 * cs.length + 2) .value cs

def read? (cs : List Char) : Option Json :=
  match readPrefix? cs with
  | some (v, rest) => if (Reader.skipBlank rest).isEmpty then some v else none
  | none => none

end HelperHandoff.Json
