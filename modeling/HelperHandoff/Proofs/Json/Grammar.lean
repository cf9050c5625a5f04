import HelperHandoff.Json.Reader

/-!
The texts of JSON values, after RFC 8259. `Spelling` relates a value to each of its texts, and a
text as a whole is a value with blanks around it. Nothing here says how a text is read: a value has
many texts, and that a text has one value is for the reader to show.
-/

set_option autoImplicit false

namespace HelperHandoff.Json

open Reader (isBlank isDigit hexDigit?)

def Blanks (cs : List Char) : Prop := ∀ c ∈ cs, isBlank c = true

/-! ### Numbers -/

def Digits (ds : List Char) : Prop := ds ≠ [] ∧ ∀ d ∈ ds, isDigit d = true

/-- Digits without a leading zero, unless they are one zero. -/
def Whole (ds : List Char) : Prop := Digits ds ∧ ∀ d rest, ds ≠ '0' :: d :: rest

def decimal (ds : List Char) : Nat := Nat.ofDigitChars 10 ds 0

inductive Fraction : List Char → List Char → Prop where
  | absent : Fraction [] []
  | present {ds : List Char} (h : Digits ds) : Fraction ds ('.' :: ds)

inductive Exponent : Int → List Char → Prop where
  | absent : Exponent 0 []
  | bare {e : Char} {ds : List Char} (he : e = 'e' ∨ e = 'E') (h : Digits ds) :
      Exponent (decimal ds) (e :: ds)
  | plus {e : Char} {ds : List Char} (he : e = 'e' ∨ e = 'E') (h : Digits ds) :
      Exponent (decimal ds) (e :: '+' :: ds)
  | minus {e : Char} {ds : List Char} (he : e = 'e' ∨ e = 'E') (h : Digits ds) :
      Exponent (-decimal ds) (e :: '-' :: ds)

/-- The texts of the number `digits * 10 ^ exponent`. -/
inductive Numeral : Int → Int → List Char → Prop where
  | plain {ds part f x : List Char} {e : Int} (hw : Whole ds) (hf : Fraction part f)
      (hx : Exponent e x) :
      Numeral (decimal (ds ++ part)) (e - part.length) (ds ++ (f ++ x))
  | minus {ds part f x : List Char} {e : Int} (hw : Whole ds) (hf : Fraction part f)
      (hx : Exponent e x) :
      Numeral (-decimal (ds ++ part)) (e - part.length) ('-' :: (ds ++ (f ++ x)))

/-! ### Strings -/

def shortEscapes : List (Char × Char) :=
  [('"', '"'), ('\\', '\\'), ('/', '/'), ('b', '\x08'), ('f', '\x0c'), ('n', '\n'), ('r', '\r'),
   ('t', '\t')]

inductive CodeUnit : List Char → Nat → Prop where
  | mk {a b c d : Char} {i j k l : Nat} (ha : hexDigit? a = some i) (hb : hexDigit? b = some j)
      (hc : hexDigit? c = some k) (hd : hexDigit? d = some l) :
      CodeUnit [a, b, c, d] (((i * 16 + j) * 16 + k) * 16 + l)

/-- The texts of a character inside a string. A code unit that is half of a pair is no character,
so the two halves have to stand together. -/
inductive Glyph : Char → List Char → Prop where
  | plain {c : Char} (hq : c ≠ '"') (hb : c ≠ '\\') (hc : 0x20 ≤ c.toNat) : Glyph c [c]
  | short {letter c : Char} (h : (letter, c) ∈ shortEscapes) : Glyph c ['\\', letter]
  | unit {c : Char} {ds : List Char} (h : CodeUnit ds c.toNat) : Glyph c ('\\' :: 'u' :: ds)
  | pair {c : Char} {ds es : List Char} {m n : Nat} (hm : CodeUnit ds m) (hn : CodeUnit es n)
      (high : 0xD800 ≤ m ∧ m ≤ 0xDBFF) (low : 0xDC00 ≤ n ∧ n ≤ 0xDFFF)
      (hc : c.toNat = 0x10000 + (m - 0xD800) * 0x400 + (n - 0xDC00)) :
      Glyph c ('\\' :: 'u' :: (ds ++ '\\' :: 'u' :: es))

inductive Glyphs : List Char → List Char → Prop where
  | nil : Glyphs [] []
  | cons {c : Char} {s g t : List Char} (hg : Glyph c g) (ht : Glyphs s t) :
      Glyphs (c :: s) (g ++ t)

inductive Name : String → List Char → Prop where
  | mk {k : String} {a t b : List Char} (ha : Blanks a) (h : Glyphs k.toList t) (hb : Blanks b) :
      Name k (a ++ '"' :: (t ++ '"' :: b))

/-! ### Values -/

/-- What a text may stand for: a value, a value with blanks around it, or what lies between the
brackets of an array or an object that is not empty. -/
inductive Part where
  | value (v : Json)
  | element (v : Json)
  | items (vs : List Json)
  | members (ms : List (String × Json))

inductive Spelling : Part → List Char → Prop where
  | null : Spelling (.value .null) ['n', 'u', 'l', 'l']
  | yes : Spelling (.value (.bool true)) ['t', 'r', 'u', 'e']
  | no : Spelling (.value (.bool false)) ['f', 'a', 'l', 's', 'e']
  | number {d e : Int} {t : List Char} (h : Numeral d e t) : Spelling (.value (.number d e)) t
  | string {s : String} {t : List Char} (h : Glyphs s.toList t) :
      Spelling (.value (.string s)) ('"' :: (t ++ ['"']))
  | emptyArray {a : List Char} (ha : Blanks a) : Spelling (.value (.array [])) ('[' :: (a ++ [']']))
  | array {vs : List Json} {t : List Char} (h : Spelling (.items vs) t) :
      Spelling (.value (.array vs)) ('[' :: (t ++ [']']))
  | emptyObject {a : List Char} (ha : Blanks a) :
      Spelling (.value (.object [])) ('{' :: (a ++ ['}']))
  | object {ms : List (String × Json)} {t : List Char} (h : Spelling (.members ms) t) :
      Spelling (.value (.object ms)) ('{' :: (t ++ ['}']))
  | element {v : Json} {a t b : List Char} (ha : Blanks a) (h : Spelling (.value v) t)
      (hb : Blanks b) : Spelling (.element v) (a ++ (t ++ b))
  | lastItem {v : Json} {t : List Char} (h : Spelling (.element v) t) : Spelling (.items [v]) t
  | item {v : Json} {vs : List Json} {t ts : List Char} (h : Spelling (.element v) t)
      (hs : Spelling (.items vs) ts) : Spelling (.items (v :: vs)) (t ++ ',' :: ts)
  | lastMember {k : String} {v : Json} {key t : List Char} (hk : Name k key)
      (h : Spelling (.element v) t) : Spelling (.members [(k, v)]) (key ++ ':' :: t)
  | member {k : String} {v : Json} {ms : List (String × Json)} {key t ts : List Char}
      (hk : Name k key) (h : Spelling (.element v) t) (hs : Spelling (.members ms) ts) :
      Spelling (.members ((k, v) :: ms)) (key ++ ':' :: (t ++ ',' :: ts))

/-- A whole text of a value, as it is exchanged. -/
def IsText (v : Json) (cs : List Char) : Prop := Spelling (.element v) cs

end HelperHandoff.Json
