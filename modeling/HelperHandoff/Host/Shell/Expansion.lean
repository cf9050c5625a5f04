import HelperHandoff.Host.Shell.Arithmetic
import HelperHandoff.Host.Shell.Descriptor
import HelperHandoff.Host.Shell.Pattern

/-!
What the words of a script stand for. A word becomes a row of strokes: characters that know where
they come from, gaps between arguments, and marks where quotes stood. From them come fields, as
arguments need them: split where a value without quotes holds a separator, and matched against
the names of files. Or they become one text or one pattern.
-/

set_option autoImplicit false

namespace HelperHandoff.Host.Shell

inductive Stroke where
  | glyph (c : Char) (ink : Ink)
  | gap
  | mark
  deriving DecidableEq, Repr

namespace Stroke

def ofString (s : String) (ink : Ink) : List Stroke := s.toList.map (.glyph · ink)

/-- A value that was put in: in quotes it leaves a mark even if it is empty. -/
def ofValue (s : String) (quoted : Bool) : List Stroke :=
  if quoted then .mark :: ofString s .quoted else ofString s .value

def glyphs (separator : Option Char) (ss : List Stroke) : List Glyph :=
  ss.filterMap fun s =>
    match s with
    | .glyph c ink => some (c, ink)
    | .gap => separator.map (·, .quoted)
    | .mark => none

end Stroke

namespace Glyph

def text (gs : List Glyph) : String := String.ofList (gs.map (·.1))

end Glyph

/-- Splitting strokes into fields. -/
structure Splitter where
  fields : List (List Glyph)
  open? : Option (List Glyph)
  loose : Bool

namespace Splitter

def isBlankSeparator (c : Char) : Bool := c == ' ' || c == '\t' || c == '\n'

def close (s : Splitter) : Splitter :=
  match s.open? with
  | some gs => ⟨gs.reverse :: s.fields, none, s.loose⟩
  | none => s

def add (s : Splitter) (g : Glyph) : Splitter :=
  { s with open? := some (g :: s.open?.getD []), loose := false }

def step (separators : String) (s : Splitter) : Stroke → Splitter
  | .gap => { s.close with loose := false }
  | .mark => { s with open? := some (s.open?.getD []), loose := false }
  | .glyph c ink =>
    if ink == .value && separators.contains c then
      if isBlankSeparator c then
        if s.open?.isSome then { s.close with loose := true } else s
      else if s.loose then { s with loose := false }
      else ⟨(s.open?.getD []).reverse :: s.fields, none, false⟩
    else s.add (c, ink)

def run (separators : String) (ss : List Stroke) : List (List Glyph) :=
  ((ss.foldl (step separators) ⟨[], none, false⟩).close).fields.reverse

end Splitter

namespace Sh

def joint : Sh (Option Char) := do
  match ← value? "IFS" with
  | none => return some ' '
  | some s => return s.toList.head?

/-! ### Parameters -/

def joinedArgs : Sh String := do
  let separator := (← joint).elim "" String.singleton
  return separator.intercalate (← process).args

def parameter? (name : String) : Sh (Option String) := do
  let p ← process
  match name with
  | "@" | "*" => if p.args.isEmpty then return none else return some (← joinedArgs)
  | "#" => return some (toString p.args.length)
  | "?" => return some (toString p.status)
  | "$" => return some (toString (← shell))
  | "!" => return p.background?.map toString
  | "-" => return some (String.ofList p.modes)
  | _ =>
    match Text.decimal? name with
    | some 0 => return some p.arg0
    | some n => return p.args[n - 1]?
    | none => value? name

def argumentStrokes (quoted star : Bool) : Sh (List Stroke) := do
  let args := (← process).args
  if quoted && star then return Stroke.ofValue (← joinedArgs) true
  else return (args.map fun a => Stroke.ofValue a quoted).intersperse [.gap] |>.flatten

def numberOf (vars : List Variable) (name : String) : Except String Int :=
  let text := ((vars.find? (·.name == name)).bind (·.value?)).getD ""
  match Arithmetic.numberOf? text with
  | some n => .ok n
  | none => .error ("Illegal number: " ++ text)

def calculate (text : String) : Sh Int := do
  let p ← process
  match Arithmetic.evaluate (numberOf p.vars) text with
  | .ok n => return n
  | .error e =>
    if "Illegal".toList.isPrefixOf e.toList then fail e
    else fail ("arithmetic expression: " ++ e ++ ": \"" ++ text ++ "\"")

def isPresent (colon : Bool) (value? : Option String) : Bool :=
  match value? with
  | none => false
  | some v => !(colon && v.isEmpty)

/-! ### Pieces -/

def outputOf (capture : Script → Sh Bytes) (s : Script) : Sh String := do
  let b := (← capture s).filter (· != 0)
  return Latin1.decode (b.reverse.dropWhile (· == 10)).reverse

/-- The strokes of a word. Text without quotes that stands in for a value is split like one. -/
def strokes (capture : Script → Sh Bytes) : Nat → Bool → Word → Sh (List Stroke)
  | 0, _, _ => throw .exhausted
  | depth + 1, inValue, w => do
    let mut found : List Stroke := []
    for p in w do
      let more ← match p with
        | .text s true => pure (.mark :: Stroke.ofString s .quoted)
        | .text s false => pure (Stroke.ofString s (if inValue then .value else .plain))
        | .output s quoted => pure (Stroke.ofValue (← outputOf capture s) quoted)
        | .sum e quoted =>
          let text := Glyph.text (Stroke.glyphs none (← strokes capture depth false e))
          pure (Stroke.ofValue (toString (← calculate text)) quoted)
        | .parameter name how argument quoted =>
          let all := name == "@" || name == "*"
          let value? ← parameter? name
          let plainly : Sh (List Stroke) := do
            if all then argumentStrokes quoted (name == "*")
            else return Stroke.ofValue (value?.getD "") quoted
          let substitute : Sh (List Stroke) := do
            if quoted then return .mark :: (← strokes capture depth true argument)
            else strokes capture depth true argument
          if value?.isNone && !all && how.needsValue && (← hasMode 'u') then
            fail (name ++ ": parameter not set")
          match how with
          | .plain => plainly
          | .length => pure (Stroke.ofValue (toString (value?.getD "").length) quoted)
          | .orDefault colon => if isPresent colon value? then plainly else substitute
          | .ifPresent colon =>
            if isPresent colon value? then substitute else pure (if quoted then [.mark] else [])
          | .orAssign colon =>
            if isPresent colon value? then plainly
            else if !isName name then fail (name ++ ": bad variable name")
            else
              let text := Glyph.text (Stroke.glyphs (← joint)
                (← strokes capture depth false argument))
              setVariable name text
              pure (Stroke.ofValue text quoted)
          | .orComplain colon =>
            if isPresent colon value? then plainly
            else if argument.isEmpty then
              fail (name ++ ": parameter not set" ++ (if colon then " or null" else ""))
            else
              let text := Glyph.text (Stroke.glyphs (← joint)
                (← strokes capture depth false argument))
              fail (name ++ ": " ++ text)
          | .trimFront longest =>
            let p := Pattern.read (Stroke.glyphs none (← strokes capture depth false argument))
            pure (Stroke.ofValue (p.trim true longest (value?.getD "")) quoted)
          | .trimBack longest =>
            let p := Pattern.read (Stroke.glyphs none (← strokes capture depth false argument))
            pure (Stroke.ofValue (p.trim false longest (value?.getD "")) quoted)
          | .unknown => fail "Bad substitution"
      found := found ++ more
    return found

def deepestWord : Nat := 100

def strokesOf (capture : Script → Sh Bytes) (w : Word) : Sh (List Stroke) :=
  strokes capture deepestWord false w

/-! ### Names of files -/

def segments (gs : List Glyph) : List (List Glyph) :=
  gs.foldr (fun g fs =>
    if g.1 == '/' then [] :: fs
    else
      match fs with
      | f :: rest => (g :: f) :: rest
      | [] => [[g]]) [[]]

def namesIn (v : View) (l : Location) (p : Pattern) : List String :=
  let dotted := p.head? == some (.char '.')
  let names := (v.names l).map Latin1.decode ++ (if dotted then [".", ".."] else [])
  names.filter fun n => p.accepts n.toList && (dotted || n.toList.head? != some '.')

/-- The paths that begin with this one and go on as the segments say. -/
def pathsFrom (v : View) (cwd : Location) (done : String) : List (List Glyph) → List String
  | [] => []
  | s :: rest =>
    let p := Pattern.read s
    let exists_ (path : String) : Bool :=
      let b := Latin1.encode path
      (v.walk false View.mostLinks (View.origin cwd b) (Bytes.fields Bytes.slash b)).isOk
    if p.isActive then
      let dir := if done.isEmpty then Bytes.ofString "." else Latin1.encode done
      match v.resolve cwd dir with
      | .error _ => []
      | .ok l =>
        (namesIn v l p).flatMap fun n =>
          if rest.isEmpty then [done ++ n]
          else pathsFrom v cwd (done ++ n ++ "/") rest
    else
      let path := done ++ Glyph.text s
      if rest.isEmpty then (if exists_ path then [path] else [])
      else pathsFrom v cwd (path ++ "/") rest

def pathsOf (gs : List Glyph) : Sh (List String) := do
  if (← hasMode 'f') || !(Pattern.read gs).isActive then return [Glyph.text gs]
  else
    let cwd := (← process).cwd
    let found := pathsFrom (← view) cwd "" (segments gs)
    if found.isEmpty then return [Glyph.text gs]
    else return found.mergeSort fun a b => a ≤ b

/-! ### Words -/

def fieldsOf (capture : Script → Sh Bytes) (ws : List Word) : Sh (List String) := do
  let mut found : List String := []
  for w in ws do
    let fields := Splitter.run (← separators) (← strokesOf capture w)
    for f in fields do
      found := (← pathsOf f).reverse ++ found
  return found.reverse

def textOf (capture : Script → Sh Bytes) (w : Word) : Sh String := do
  let ss ← strokesOf capture w
  return Glyph.text (Stroke.glyphs (← joint) ss)

def patternOf (capture : Script → Sh Bytes) (w : Word) : Sh Pattern := do
  let ss ← strokesOf capture w
  return Pattern.read (Stroke.glyphs (← joint) ss)

end Sh

end HelperHandoff.Host.Shell
