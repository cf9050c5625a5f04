import HelperHandoff.Host.Shell.Script

/-!
Reading scripts. The text is taken apart line by line: `Reader.line?` gives the next complete
command, which may go over several lines, and leaves the rest of the text alone, so that a fault
further down does not keep the lines above it from being run.

Commands and words hold one another. The readers for both are fields of `Readers`, and
`Readers.deep` ties the knot, with a bound on how deep scripts may stand in one another.
-/

set_option autoImplicit false

namespace HelperHandoff.Host.Shell

structure Fault where
  line : Nat
  text : String
  deriving DecidableEq, Repr

inductive Token where
  | word (w : Word)
  | arrow (descriptor? : Option Nat) (mark : String)
  | operator (mark : String)
  | newline
  | done

structure Source where
  rest : List Char
  line : Nat
  pending? : Option Token
  last : Word

def Source.budget (s : Source) : Nat := s.rest.length + 3

def Source.goTo (s : Source) (rest : List Char) (lines : Nat) : Source :=
  { s with rest := rest, line := s.line + lines }

abbrev Reader := StateT Source (Except Fault)

namespace Reader

variable {α : Type}

def fault (text : String) : Reader α := do throw ⟨(← get).line, text⟩

def peek? : Reader (Option Char) := do return (← get).rest.head?

def next? : Reader (Option Char) := do
  let s ← get
  match s.rest with
  | [] => return none
  | c :: rest =>
    set (s.goTo rest (if c == '\n' then 1 else 0))
    return some c

def skip : Reader Unit := do let _ ← next?

def accept (c : Char) : Reader Bool := do
  if (← peek?) == some c then
    skip
    return true
  else return false

def takeWhile (pass : Char → Bool) : Reader String := do
  let s ← get
  let taken := s.rest.takeWhile pass
  let rest := s.rest.drop taken.length
  set (s.goTo rest (taken.count '\n'))
  return String.ofList taken

def upTo (close : Char) (complaint : String) : Reader String := do
  let inside ← takeWhile (· != close)
  if ← accept close then return inside else fault complaint

def apart (text : List Char) (read : Reader α) : Reader α := do
  let outer ← get
  set { outer with rest := text, line := 1, pending? := none }
  let result ← read
  set outer
  return result

end Reader

/-- The readers for what may stand in anything. -/
structure Readers where
  list : Bool → Reader Script
  command : Reader Script
  token : Reader Token

namespace Token

def keywords : List String :=
  ["!", "\x7b", "\x7d", "case", "do", "done", "elif", "else", "esac", "fi", "for", "if", "in",
   "then", "until", "while"]

def keyword? : Token → Option String
  | .word w => w.bare?.filter keywords.contains
  | _ => none

def isWord (t : Token) (s : String) : Bool :=
  match t with
  | .word w => w.bare? == some s
  | _ => false

def isOperator (t : Token) (s : String) : Bool :=
  match t with
  | .operator m => m == s
  | _ => false

def closes (t : Token) : Bool :=
  match t with
  | .done => true
  | .operator m => m == ")" || m == ";;"
  | .word _ => t.keyword?.any
      ["\x7d", "do", "done", "elif", "else", "esac", "fi", "then"].contains
  | _ => false

def quote (s : String) : String := "\"" ++ s ++ "\""

def shownPlain : Token → String
  | .word _ => "word"
  | .arrow _ _ => "redirection"
  | .operator m => quote m
  | .newline => "newline"
  | .done => "end of file"

def shown (t : Token) : String := (t.keyword?.map quote).getD t.shownPlain

end Token

namespace Reader

/-! ### Words -/

/-- The line that ends a text given as input, and whether tabs before its lines are dropped. -/
structure Closing where
  text : String
  strip : Bool
  deriving DecidableEq

/-- Where a stretch of a word stands. -/
inductive Place where
  | word
  | mark
  | double
  | here (closing : Closing)
  | braces (quoted : Bool) (closing? : Option Closing)
  | sum (opened : Nat)
  deriving DecidableEq

def Place.quotes : Place → Bool
  | .word | .mark => false
  | .braces quoted _ => quoted
  | _ => true

def Place.closing? : Place → Option Closing
  | .here c => some c
  | .braces _ c? => c?
  | _ => none

def isBlank (c : Char) : Bool := c == ' ' || c == '\t'

def endsWord (c : Char) : Bool := isBlank c || "\n;&|<>()".toList.contains c

def escapes (p : Place) (c : Char) : Bool :=
  c == '$' || c == '\\' || c == '\x60' ||
    match p with
    | .double => c == '"'
    | .braces _ _ => c == '"' || c == '\x7d'
    | _ => false

def specialParameters : List Char := ['*', '@', '#', '?', '-', '$', '!']

def parameterName? (inBraces : Bool) : Reader (Option String) := do
  match ← peek? with
  | none => return none
  | some c =>
    if isNameStart c then return some (← takeWhile isNamePart)
    else if c.isDigit && inBraces then return some (← takeWhile Char.isDigit)
    else if c.isDigit || specialParameters.contains c then
      skip
      return some (String.singleton c)
    else return none

def change : Reader Change := do
  if ← accept '\x7d' then return .plain
  let colon ← accept ':'
  match ← next? with
  | some '-' => return .orDefault colon
  | some '=' => return .orAssign colon
  | some '?' => return .orComplain colon
  | some '+' => return .ifPresent colon
  | some '%' => if colon then return .unknown else return .trimBack (← accept '%')
  | some '#' => if colon then return .unknown else return .trimFront (← accept '#')
  | _ => return .unknown

/-- The text between back quotes, with the backslashes that only protect taken away. -/
def backQuoted (quoted : Bool) : Nat → List Char → Reader (List Char)
  | 0, _ => fault "EOF in backquote substitution"
  | fuel + 1, done => do
    match ← next? with
    | none => fault "EOF in backquote substitution"
    | some '\x60' => return done.reverse
    | some '\\' =>
      match ← next? with
      | none => fault "EOF in backquote substitution"
      | some '\n' => backQuoted quoted fuel done
      | some c =>
        if c == '\\' || c == '$' || c == '\x60' || (quoted && c == '"') then
          backQuoted quoted fuel (c :: done)
        else backQuoted quoted fuel (c :: '\\' :: done)
    | some c => backQuoted quoted fuel (c :: done)

def expectOperator (r : Readers) (mark : String) : Reader Unit := do
  let t ← r.token
  unless t.isOperator mark do
    fault (t.shown ++ " unexpected (expecting " ++ Token.quote mark ++ ")")

def scriptInParentheses (r : Readers) : Reader Script := do
  let s ← r.list true
  expectOperator r ")"
  return s

def scriptOf (r : Readers) (text : List Char) : Reader Script :=
  apart text do
    let s ← r.list true
    match ← r.token with
    | .done => return s
    | t => fault (t.shown ++ " unexpected")

def lengthName? : Reader (Option String) := do
  let before ← get
  skip
  match ← parameterName? true with
  | some name =>
    if (← peek?) == some '\x7d' then
      skip
      return some name
    else
      set before
      return none
  | none =>
    set before
    return none

/-- Takes the line that ends a text if it is the next one. Tabs before a line are dropped. -/
def endsHere (c : Closing) : Reader Bool := do
  let s ← get
  let rest := if c.strip then s.rest.dropWhile (· == '\t') else s.rest
  let mark := c.text.toList
  match rest.drop mark.length with
  | [] =>
    if rest == mark then
      set (s.goTo [] 0)
      return true
    else
      set { s with rest := rest }
      return false
  | d :: after =>
    if d == '\n' && mark.isPrefixOf rest then
      set (s.goTo after 1)
      return true
    else
      set { s with rest := rest }
      return false

/-- The pieces of a word, latest first. -/
def pieces (r : Readers) : Nat → Place → List Piece → Reader (List Piece)
  | 0, _, _ => fault "word too long"
  | fuel + 1, p, found => do
    let quoted := p.quotes
    let text (c : Char) (q : Bool) : Piece := .text (String.singleton c) q
    match ← peek? with
    | none =>
      match p with
      | .word | .mark | .here _ => return found
      | .double => fault "Unterminated quoted string"
      | .braces quoted closing? =>
        fault (if quoted && closing?.isNone then "Unterminated quoted string" else "Missing '\x7d'")
      | .sum _ => fault "Missing '))'"
    | some c =>
      if (p == .word || p == .mark) && endsWord c then return found
      else
        skip
        match c with
        | '\n' =>
          let ended ← match p.closing? with
            | some closing => endsHere closing
            | none => pure false
          if !ended then pieces r fuel p (text c quoted :: found)
          else
            match p with
            | .here _ => return text c quoted :: found
            | _ => fault "Missing '\x7d'"
        | '\\' =>
          match ← peek? with
          | none => pieces r fuel p (text '\\' true :: found)
          | some '\n' =>
            skip
            pieces r fuel p found
          | some d =>
            if quoted && !escapes p d then pieces r fuel p (text '\\' true :: found)
            else
              skip
              pieces r fuel p (text d true :: found)
        | '$' =>
          let q ← if p == .mark then pure (text c false) else dollar fuel p
          pieces r fuel p (q :: found)
        | '\x60' =>
          if p == .mark then pieces r fuel p (text c false :: found)
          else
          let inside ← backQuoted quoted ((← get).rest.length + 1) []
          let s ← scriptOf r inside
          pieces r fuel p (.output s quoted :: found)
        | '\x27' =>
          if quoted then pieces r fuel p (text c true :: found)
          else
            let inside ← Reader.upTo '\x27' "Unterminated quoted string"
            pieces r fuel p (.text inside true :: found)
        | '"' =>
          match p with
          | .double => return found
          | .here _ | .sum _ => pieces r fuel p (text c true :: found)
          | .word | .mark | .braces _ _ =>
            let inside ← pieces r fuel .double []
            pieces r fuel p ((if inside.isEmpty then [.text "" true] else inside) ++ found)
        | '\x7d' =>
          match p with
          | .braces _ _ => return found
          | _ => pieces r fuel p (text c quoted :: found)
        | '(' =>
          match p with
          | .sum n => pieces r fuel (.sum (n + 1)) (text c true :: found)
          | _ => pieces r fuel p (text c quoted :: found)
        | ')' =>
          match p with
          | .sum 0 =>
            if ← accept ')' then return found
            else pieces r fuel p (text c true :: found)
          | .sum (n + 1) => pieces r fuel (.sum n) (text c true :: found)
          | _ => pieces r fuel p (text c quoted :: found)
        | c => pieces r fuel p (text c quoted :: found)
where
  dollar (fuel : Nat) (p : Place) : Reader Piece := do
    let quoted := p.quotes
    if ← accept '(' then
      if ← accept '(' then
        let inside ← pieces r fuel (.sum 0) []
        return .sum (Word.joined inside.reverse) quoted
      else return .output (← scriptInParentheses r) quoted
    else if ← accept '\x7b' then
      let length? ← if (← peek?) == some '#' then lengthName? else pure none
      match length? with
      | some name => return .parameter name .length [] quoted
      | none =>
        match ← parameterName? true with
        | none =>
          unless (← peek?) == some '\x7d' do
            let _ ← next?
          let _ ← pieces r fuel (.braces quoted p.closing?) []
          return .parameter "" .unknown [] quoted
        | some name =>
          let how ← change
          match how with
          | .plain => return .parameter name .plain [] quoted
          | .trimFront _ | .trimBack _ =>
            let inside ← pieces r fuel (.braces false p.closing?) []
            return .parameter name how (Word.joined inside.reverse) quoted
          | _ =>
            let inside ← pieces r fuel (.braces quoted p.closing?) []
            return .parameter name how (Word.joined inside.reverse) quoted
    else
      match ← parameterName? false with
      | some name => return .parameter name .plain [] quoted
      | none => return .text "$" quoted

/-! ### Tokens -/

def skipBlanks : Nat → Reader Unit
  | 0 => return
  | fuel + 1 => do
    let _ ← takeWhile isBlank
    match (← get).rest with
    | '\\' :: '\n' :: _ =>
      skip
      skip
      skipBlanks fuel
    | '#' :: _ =>
      let _ ← takeWhile (· != '\n')
    | _ => return

def arrowMark : Reader String := do
  let s ← get
  match s.rest with
  | '<' :: '<' :: '-' :: rest => taken s rest "<<-"
  | '<' :: '<' :: rest => taken s rest "<<"
  | '<' :: '&' :: rest => taken s rest "<&"
  | '<' :: '>' :: rest => taken s rest "<>"
  | '>' :: '>' :: rest => taken s rest ">>"
  | '>' :: '&' :: rest => taken s rest ">&"
  | '>' :: '|' :: rest => taken s rest ">|"
  | '<' :: rest => taken s rest "<"
  | _ :: rest => taken s rest ">"
  | [] => return ""
where
  taken (s : Source) (rest : List Char) (mark : String) : Reader String := do
    set { s with rest := rest }
    return mark

def once (c : Char) : Reader Token := do
  skip
  if ← accept c then return .operator (String.ofList [c, c])
  else return .operator (String.singleton c)

def digitWord? (w : Word) : Option Nat :=
  match w.bare?.map String.toList with
  | some [c] => if c.isDigit then some (c.toNat - '0'.toNat) else none
  | _ => none

def token (r : Readers) : Reader Token := do
  let s ← get
  match s.pending? with
  | some t =>
    set { s with pending? := none }
    return t
  | none =>
    skipBlanks (s.rest.length + 1)
    match ← peek? with
    | none => return .done
    | some '\n' =>
      skip
      return .newline
    | some '&' => once '&'
    | some '|' => once '|'
    | some ';' => once ';'
    | some '(' =>
      skip
      return .operator "("
    | some ')' =>
      skip
      return .operator ")"
    | some '<' | some '>' => return .arrow none (← arrowMark)
    | some _ =>
      let found ← pieces r ((← get).rest.length + 1) .word []
      let w := Word.joined found.reverse
      match digitWord? w, ← peek? with
      | some n, some '<' | some n, some '>' => return .arrow (some n) (← arrowMark)
      | _, _ =>
        modify fun s => { s with last := w }
        return .word w

def putBack (t : Token) : Reader Unit := modify fun s => { s with pending? := some t }

def unexpected {α : Type} (t : Token) : Reader α := fault (t.shown ++ " unexpected")

def expectWord (r : Readers) (s : String) : Reader Unit := do
  let t ← r.token
  unless t.isWord s do
    fault (t.shown ++ " unexpected (expecting " ++ Token.quote s ++ ")")

def skipNewlines (r : Readers) : Nat → Reader Unit
  | 0 => return
  | fuel + 1 => do
    match ← r.token with
    | .newline => skipNewlines r fuel
    | t => putBack t

def toNextToken (r : Readers) : Reader Unit := do skipNewlines r (← get).budget

/-! ### Commands -/

def linesUntil (c : Closing) : Nat → List Char → Reader (List Char)
  | 0, body => return body.reverse
  | fuel + 1, body => do
    if ← endsHere c then return body.reverse
    else
      let line ← takeWhile (· != '\n')
      let body := line.toList.reverse ++ body
      if ← accept '\n' then linesUntil c fuel ('\n' :: body) else return body.reverse

def hereText (r : Readers) (c : Closing) (raw : Bool) : Reader Word := do
  let size := (← get).rest.length + 1
  if raw then return [.text (String.ofList (← linesUntil c size [])) true]
  else if ← endsHere c then return []
  else return Word.joined (← pieces r size (.here c) []).reverse

def toLineEnd (r : Readers) : Nat → Reader Unit
  | 0 => return
  | fuel + 1 => do
    match ← r.token with
    | .newline | .done => return
    | _ => toLineEnd r fuel

/-- The text that begins on the next line, which is taken out of the source. -/
def textBelow (r : Readers) (c : Closing) (raw : Bool) : Reader Word := do
  let s ← get
  toLineEnd r s.budget
  let atEnd ← get
  let body ← hereText r c raw
  let after := (← get).rest
  set { s with rest := s.rest.take (s.rest.length - atEnd.rest.length) ++ after }
  return body

def redirection (r : Readers) (descriptor? : Option Nat) (mark : String) :
    Reader Redirection := do
  if mark == "<<" || mark == "<<-" then
    skipBlanks ((← get).rest.length + 1)
    let found ← pieces r ((← get).rest.length + 1) .mark []
    let w := Word.joined found.reverse
    let numbered := (digitWord? w).isSome && (← peek?).any fun c => c == '<' || c == '>'
    if numbered then unexpected (.arrow none "")
    else if found.isEmpty then unexpected (← r.token)
    else
      modify fun s => { s with last := w }
      let body ← textBelow r ⟨w.unquoted, mark == "<<-"⟩ w.hasQuotes
      return .mk (descriptor?.getD 0) .text body
  else
    match ← r.token with
    | .word w =>
      match mark with
      | "<" => return .mk (descriptor?.getD 0) .input w
      | "<>" => return .mk (descriptor?.getD 0) .update w
      | "<&" => return .mk (descriptor?.getD 0) .copy w
      | ">&" => return .mk (descriptor?.getD 1) .copy w
      | ">>" => return .mk (descriptor?.getD 1) .append w
      | ">|" => return .mk (descriptor?.getD 1) (.output true) w
      | _ => return .mk (descriptor?.getD 1) (.output false) w
    | t => unexpected t

def redirections (r : Readers) : Nat → Reader (List Redirection)
  | 0 => return []
  | fuel + 1 => do
    match ← r.token with
    | .arrow d mark =>
      let first ← redirection r d mark
      return first :: (← redirections r fuel)
    | t =>
      putBack t
      return []

def assignment? : Word → Option (String × Word)
  | .text s false :: rest =>
    let name := s.toList.takeWhile (· != '=')
    if name.length < s.length && isName (String.ofList name) then
      let value := String.ofList (s.toList.drop (name.length + 1))
      some (String.ofList name, if value.isEmpty then rest else .text value false :: rest)
    else none
  | _ => none

def specialCommands : List String :=
  [".", ":", "break", "continue", "eval", "exec", "exit", "export", "local", "readonly", "return",
   "set", "shift", "trap", "unset"]

structure Simple where
  assignments : List (String × Word)
  words : List Word
  redirections : List Redirection

def simple (r : Readers) (line : Nat) : Nat → Simple → Reader Script
  | 0, _ => fault "command too long"
  | fuel + 1, c => do
    match ← r.token with
    | .word w =>
      match (if c.words.isEmpty then assignment? w else none) with
      | some a => simple r line fuel { c with assignments := a :: c.assignments }
      | none => simple r line fuel { c with words := w :: c.words }
    | .arrow d mark =>
      let first ← redirection r d mark
      simple r line fuel { c with redirections := first :: c.redirections }
    | t =>
      match c with
      | ⟨[], [w], []⟩ =>
        if t.isOperator "(" then
          let t ← r.token
          unless t.isOperator ")" do fault (t.shownPlain ++ " unexpected (expecting \")\")")
          let name := (w.bare?.filter fun n => isName n && !specialCommands.contains n)
          match name with
          | none => fault "Bad function name"
          | some name =>
            toNextToken r
            return .define name (← r.command)
        else
          putBack t
          return .simple line [] [w] []
      | _ =>
        putBack t
        return .simple line c.assignments.reverse c.words.reverse c.redirections.reverse

def words (r : Readers) : Nat → Reader (List Word)
  | 0 => return []
  | fuel + 1 => do
    match ← r.token with
    | .word w => return w :: (← words r fuel)
    | .newline => return []
    | t => if t.isOperator ";" then return [] else unexpected t

/-- The patterns of an arm, from one token on. Whatever stands in place of a pattern counts as the
word that was read last. -/
def patterns (r : Readers) : Nat → Token → Reader (List Word)
  | 0, _ => return []
  | fuel + 1, first => do
    let w ← match first with
      | .word w => pure w
      | _ => do pure (← get).last
    let t ← r.token
    if t.isOperator "|" then return w :: (← patterns r fuel (← r.token))
    else if t.isOperator ")" then return [w]
    else fault (t.shownPlain ++ " unexpected (expecting \")\")")

def tokenBelow (r : Readers) : Nat → Reader Token
  | 0 => r.token
  | fuel + 1 => do
    match ← r.token with
    | .newline => tokenBelow r fuel
    | t => return t

def arms (r : Readers) : Nat → Reader (List (List Word × Script))
  | 0 => return []
  | fuel + 1 => do
    let t ← tokenBelow r (← get).budget
    if t.isWord "esac" then return []
    else
      let first ← if t.isOperator "(" then r.token else pure t
      let ps ← patterns r (← get).budget first
      let body ← r.list true
      let t ← tokenBelow r (← get).budget
      if t.isWord "esac" then return [(ps, body)]
      else if t.isOperator ";;" then return (ps, body) :: (← arms r fuel)
      else fault (t.shown ++ " unexpected (expecting \";;\")")

def conditional (r : Readers) : Nat → Reader Script
  | 0 => fault "command too long"
  | fuel + 1 => do
    let test ← r.list false
    expectWord r "then"
    let yes ← r.list false
    let t ← r.token
    if t.isWord "elif" then return .conditional test yes (some (← conditional r fuel))
    else if t.isWord "else" then
      let no ← r.list false
      expectWord r "fi"
      return .conditional test yes (some no)
    else if t.isWord "fi" then return .conditional test yes none
    else fault (t.shown ++ " unexpected (expecting \"fi\")")

def body (r : Readers) : Reader Script := do
  toNextToken r
  expectWord r "do"
  let s ← r.list false
  expectWord r "done"
  return s

def eachLoop (r : Readers) (line : Nat) : Reader Script := do
  match ← r.token with
  | .word w =>
    match w.bare?.filter isName with
    | none => fault "Bad for loop variable"
    | some name =>
      toNextToken r
      let t ← r.token
      if t.isWord "in" then
        let ws ← words r (← get).budget
        return .each line name (some ws) (← body r)
      else
        unless t.isOperator ";" do putBack t
        return .each line name none (← body r)
  | _ => fault "Bad for loop variable"

def choice (r : Readers) (line : Nat) : Reader Script := do
  match ← r.token with
  | .word w =>
    toNextToken r
    expectWord r "in"
    return .choice line w (← arms r (← get).budget)
  | t => fault (t.shown ++ " unexpected (expecting word)")

def compound? (r : Readers) (line : Nat) (t : Token) : Reader (Option Script) := do
  match t.keyword? with
  | some "if" => return some (← conditional r (← get).budget)
  | some "while" =>
    let test ← r.list false
    return some (.loop false test (← body r))
  | some "until" =>
    let test ← r.list false
    return some (.loop true test (← body r))
  | some "for" => return some (← eachLoop r line)
  | some "case" => return some (← choice r line)
  | some "\x7b" =>
    let s ← r.list false
    expectWord r "\x7d"
    return some s
  | some _ => unexpected t
  | none =>
    if t.isOperator "(" then
      let s ← r.list false
      expectOperator r ")"
      return some (.subshell line s [])
    else return none

def withRedirections (line : Nat) (rs : List Redirection) : Script → Script
  | .subshell first body _ => .subshell first body rs
  | s => .redirected line s rs

def command (r : Readers) : Reader Script := do
  let t ← r.token
  let line := (← get).line
  match ← compound? r line t with
  | some s =>
    let rs ← redirections r (← get).budget
    return if rs.isEmpty then s else withRedirections line rs s
  | none =>
    match t with
    | .word _ | .arrow _ _ =>
      let s ← get
      putBack t
      simple r s.line s.budget ⟨[], [], []⟩
    | t => unexpected t

def pipelineParts (r : Readers) : Nat → Reader (List Script)
  | 0 => return []
  | fuel + 1 => do
    let first ← command r
    let t ← r.token
    if t.isOperator "|" then
      toNextToken r
      return first :: (← pipelineParts r fuel)
    else
      putBack t
      return [first]

def pipeline (r : Readers) : Reader Script := do
  let t ← r.token
  let negated := t.isWord "!"
  unless negated do putBack t
  let parts ← pipelineParts r (← get).budget
  let s := match parts with
    | [s] => s
    | _ => .pipeline parts
  return if negated then .negation s else s

def chain (r : Readers) : Nat → Script → Reader Script
  | 0, first => return first
  | fuel + 1, first => do
    let t ← r.token
    if t.isOperator "&&" then
      toNextToken r
      chain r fuel (.both first (← pipeline r))
    else if t.isOperator "||" then
      toNextToken r
      chain r fuel (.either first (← pipeline r))
    else
      putBack t
      return first

def after (done : Script) (s : Script) : Script :=
  match done with
  | .nothing => s
  | _ => .sequence done s

def listFrom (r : Readers) (line : Bool) : Nat → Bool → Script → Reader Script
  | 0, _, done => return done
  | fuel + 1, mayEnd, done => do
    unless line do toNextToken r
    let t ← r.token
    match t with
    | .newline => return done
    | .done =>
      putBack t
      return done
    | _ =>
      putBack t
      if !line && mayEnd && t.closes then return done
      else
        let first ← pipeline r
        let s ← chain r fuel first
        let t ← r.token
        let s := if t.isOperator "&" then .background s else s
        let done := after done s
        if t.isOperator ";" || t.isOperator "&" then listFrom r line fuel true done
        else
          match t with
          | .newline =>
            if line then return done else listFrom r line fuel true done
          | .done =>
            putBack t
            return done
          | _ =>
            if line then unexpected t
            else
              putBack t
              return done

end Reader

namespace Readers

/-- Readers for scripts that stand in one another no deeper than this. -/
def deep : Nat → Readers
  | 0 =>
    { list := fun _ => Reader.fault "nested too deep"
      command := Reader.fault "nested too deep"
      token := Reader.fault "nested too deep" }
  | n + 1 =>
    { list := fun mayBeEmpty s =>
        (do Reader.listFrom (deep n) false (← get).budget mayBeEmpty .nothing).run s
      command := fun s => (Reader.command (deep n)).run s
      token := fun s => (Reader.token (deep n)).run s }

end Readers

namespace Reader

/-- The next command of a text, which may be none on an empty line; nothing at the end. -/
def line? (s : Source) : Except Fault (Option (Script × Source)) := do
  let r := Readers.deep s.budget
  let (t, after) ← (r.token).run s
  match t with
  | .done => return none
  | .newline => return some (.nothing, after)
  | t =>
    let (script, after) ← (listFrom r true after.budget false .nothing).run
      { after with pending? := some t }
    return some (script, after)

def start (text : String) : Source := ⟨text.toList, 1, none, []⟩

end Reader

end HelperHandoff.Host.Shell
