import HelperHandoff.Bytes

/-!
UTF-8 in both directions. A byte string is cut into pieces: each piece is one scalar value or
one ill-formed run, and an ill-formed run is the longest stretch that some well-formed sequence
starts with, or else a single byte. Strict reading refuses ill-formed runs; lossy reading writes
U+FFFD for each. Scalar values themselves are recognised by core's decoder.
-/

set_option autoImplicit false

namespace HelperHandoff.Utf8

def encode (cs : List Char) : Bytes := cs.flatMap String.utf8EncodeChar

def scalar? (b : Bytes) : Option Char := (b.take 4).toByteArray.utf8DecodeChar? 0

/-- How many continuation bytes a leading byte asks for, and the range of the first of them. -/
def expected (lead : UInt8) : Nat × UInt8 × UInt8 :=
  if lead < 0xC2 then (0, 0, 0)
  else if lead ≤ 0xDF then (1, 0x80, 0xBF)
  else if lead = 0xE0 then (2, 0xA0, 0xBF)
  else if lead = 0xED then (2, 0x80, 0x9F)
  else if lead ≤ 0xEF then (2, 0x80, 0xBF)
  else if lead = 0xF0 then (3, 0x90, 0xBF)
  else if lead ≤ 0xF3 then (3, 0x80, 0xBF)
  else if lead = 0xF4 then (3, 0x80, 0x8F)
  else (0, 0, 0)

/-- How many of the bytes after the leading one still belong to its ill-formed run. -/
def runTail (more : Nat) (lo hi : UInt8) : Bytes → Nat
  | [] => 0
  | b :: rest =>
    match more with
    | 0 => 0
    | more + 1 => if lo ≤ b ∧ b ≤ hi then 1 + runTail more 0x80 0xBF rest else 0

def next (b : UInt8) (rest : Bytes) : Option Char × Bytes :=
  match scalar? (b :: rest) with
  | some c => (some c, rest.drop (c.utf8Size - 1))
  | none =>
    let (more, lo, hi) := expected b
    (none, rest.drop (runTail more lo hi rest))

theorem next_length_le (b : UInt8) (rest : Bytes) : (next b rest).2.length ≤ rest.length := by
  unfold next
  split <;> simp

def piecesOnto (found : List (Option Char)) : Bytes → List (Option Char)
  | [] => found.reverse
  | b :: rest => piecesOnto ((next b rest).1 :: found) (next b rest).2
termination_by b => b.length
decreasing_by exact Nat.lt_succ_of_le (next_length_le b rest)

/-- The pieces of a byte string in order: a scalar value, or `none` for an ill-formed run. -/
def pieces (b : Bytes) : List (Option Char) := piecesOnto [] b

def decode? (b : Bytes) : Option String :=
  (pieces b).mapM id |>.map String.ofList

def replacement : Char := '\uFFFD'

def lossy (b : Bytes) : String :=
  String.ofList ((pieces b).map (·.getD replacement))

theorem piecesOnto_eq (found : List (Option Char)) (b : Bytes) :
    piecesOnto found b = found.reverse ++ piecesOnto [] b := by
  induction hn : b.length using Nat.strongRecOn generalizing found b with
  | ind n ih =>
    cases b with
    | nil => simp [piecesOnto]
    | cons x rest =>
      have hl : (next x rest).2.length < n := by
        have h := next_length_le x rest
        simp only [List.length_cons] at hn
        omega
      rw [piecesOnto, piecesOnto, ih _ hl _ _ rfl, ih _ hl [(next x rest).1] _ rfl]
      simp

@[simp] theorem pieces_nil : pieces [] = [] := by simp [pieces, piecesOnto]

theorem pieces_cons (b : UInt8) (rest : Bytes) :
    pieces (b :: rest) = (next b rest).1 :: pieces (next b rest).2 := by
  unfold pieces
  rw [piecesOnto, piecesOnto_eq]
  simp

end HelperHandoff.Utf8

namespace HelperHandoff.Bytes

def ofString (s : String) : Bytes := Utf8.encode s.toList

def display (b : Bytes) : String := Utf8.lossy b

end HelperHandoff.Bytes
