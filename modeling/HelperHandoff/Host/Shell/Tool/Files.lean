import HelperHandoff.Host.Shell.Rights
import HelperHandoff.Host.Shell.Tool.Options

set_option autoImplicit false

namespace HelperHandoff.Host.Shell.Tool

/-! ### Paths by their spelling -/

def baseName (path : String) : String :=
  match ((path.splitOn "/").filter fun n => !n.isEmpty).getLast? with
  | some n => n
  | none => if path.isEmpty then "" else "/"

def dirName (path : String) : String :=
  let cs := path.toList.reverse.dropWhile (· == '/')
  if cs.isEmpty then (if path.isEmpty then "." else "/")
  else
    let above := cs.dropWhile (· != '/')
    if above.isEmpty then "."
    else
      let above := above.dropWhile (· == '/')
      if above.isEmpty then "/" else String.ofList above.reverse

def trimmed (path : String) : String :=
  let cs := (path.toList.reverse.dropWhile (· == '/')).reverse
  if cs.isEmpty then path else String.ofList cs

def join (dir name : String) : String :=
  if dir.toList.getLast? == some '/' then dir ++ name else dir ++ "/" ++ name

def ancestry (path : String) : List String :=
  let names := (trimmed path).splitOn "/"
  let paths := (List.range names.length).map fun i => "/".intercalate (names.take (i + 1))
  paths.filter fun p => !p.isEmpty

def basename (t : Tool) : Sh Nat :=
  t.onOperands ⟨"", ""⟩ fun o => do
    let name := baseName (o.operands.head?.getD "")
    let suffix := (o.operands[1]?).getD ""
    let cut := name != suffix && suffix.toList.isSuffixOf name.toList
    Sh.out ((if cut then String.ofList (name.toList.take (name.length - suffix.length)) else name) ++
      "\n")
    return 0

def dirname (t : Tool) : Sh Nat :=
  t.onOperands ⟨"", ""⟩ fun o => do
    Sh.out (unlines (o.operands.map dirName))
    return 0

def readlink (t : Tool) : Sh Nat :=
  t.onOperands ⟨"fn", ""⟩ fun o => do
    let mut status := 0
    for path in o.operands do
      let found? ← do
        if o.has 'f' then pure ((← Sh.resolve path).toOption.map Location.path)
        else
          match ← Sh.linkNode? path with
          | some (.link target) => pure (some target)
          | _ => pure none
      match found? with
      | some b => Sh.out (Latin1.decode b ++ if o.has 'n' then "" else "\n")
      | none => status := 1
    return status

/-! ### Making and removing -/

def vacancy (path : String) : Sh (Except Errno Location) := do
  return (← Sh.view).vacancy (← Sh.process).cwd (Latin1.encode path) .fileExists

def isDirectoryAt (l : Location) : Sh Bool := do return (← Sh.nodeAt l).any Node.isDirectory

def mkdirOne (quiet : Bool) (path : String) : Sh (Option String) := do
  match ← vacancy (trimmed path) with
  | .ok l =>
    Sh.place l .directory 0o777
    return none
  | .error e =>
    if quiet && e = .fileExists && (← Sh.node? path).any Node.isDirectory then return none
    else return some ("cannot create directory " ++ inQuotes path ++ ": " ++ Sh.describe e)

def mkdir (t : Tool) : Sh Nat :=
  t.onOperands ⟨"p", ""⟩ fun o =>
    let paths := if o.has 'p' then o.operands.flatMap ancestry else o.operands
    t.forEach paths (mkdirOne (o.has 'p'))

def rmdir (t : Tool) : Sh Nat :=
  t.onOperands ⟨"", ""⟩ fun o => t.forEach o.operands fun path => do
    let trouble (e : Errno) : Option String :=
      some ("failed to remove " ++ inQuotes path ++ ": " ++ Sh.describe e)
    match ← Sh.resolveLink path with
    | .error e => return trouble e
    | .ok l =>
      if !(← isDirectoryAt l) then return trouble .notDirectory
      else if !((← Sh.host).tree.names l).isEmpty then return trouble .notEmpty
      else
        Sh.changeTree (·.remove l)
        return none

def rm (t : Tool) : Sh Nat :=
  t.withOptions ⟨"frR", ""⟩ false 1 fun o =>
    if o.operands.isEmpty && !o.has 'f' then t.misused "missing operand" 1
    else t.forEach o.operands fun path => do
      let trouble (e : Errno) : Option String :=
        some ("cannot remove " ++ inQuotes path ++ ": " ++ Sh.describe e)
      match ← Sh.resolveLink path with
      | .error e =>
        return if o.has 'f' && (e = .noEntry || e = .notDirectory) then none else trouble e
      | .ok l =>
        if !(← isDirectoryAt l) then Sh.changeTree (·.remove l)
        else if o.has 'r' || o.has 'R' then Sh.changeTree (·.removeAll l)
        else return trouble .isDirectory
        return none

def touch (t : Tool) : Sh Nat :=
  t.onOperands ⟨"", ""⟩ fun o => t.forEach o.operands fun path => do
    match ← Sh.openForWriting path true false false with
    | .ok _ =>
      let now := (← Sh.world).clock
      if let .ok l ← Sh.resolve path then
        if let some number := (← Sh.host).tree.number? l then
          Sh.changeTree (·.change number fun f => { f with changed := now })
      return none
    | .error e => return some ("cannot touch " ++ inQuotes path ++ ": " ++ Sh.describe e)

def chmod (t : Tool) : Sh Nat := do
  match t.args with
  | [] => t.misused "missing operand" 1
  | [mode] => t.misused ("missing operand after " ++ inQuotes mode) 1
  | mode :: paths =>
    if (Rights.ofMode? 0 0 mode).isNone then t.misused ("invalid mode: " ++ inQuotes mode) 1
    else t.forEach paths fun path => do
      match ← Sh.resolve path with
      | .error e => return some ("cannot access " ++ inQuotes path ++ ": " ++ Sh.describe e)
      | .ok l =>
        let mask := (← Sh.process).mask
        if let some number := (← Sh.host).tree.number? l then
          Sh.changeTree (·.change number fun f =>
            { f with mode := (Rights.ofMode? mask f.mode mode).getD f.mode })
        return none

/-! ### Moving and copying -/

/-- Sources and the place for each: below the last operand if that is a directory, unless it is
never to be taken for one. A call that gives none is told what is wrong with it. -/
def placed (t : Tool) (o : Options) (never : Bool) : Sh (Option (List (String × String))) := do
  match o.operands.reverse with
  | [] =>
    let _ ← t.misused "missing file operand" 1
    return none
  | [s] =>
    let _ ← t.misused ("missing destination file operand after " ++ inQuotes s) 1
    return none
  | target :: sources =>
    let node? ← Sh.node? target
    if !never && node?.any Node.isDirectory then
      return some (sources.reverse.map fun s => (s, join target (baseName s)))
    else
      match sources with
      | [s] => return some [(s, target)]
      | _ =>
        let e := if node?.isSome then Errno.notDirectory else .noEntry
        t.say ("target " ++ inQuotes target ++ ": " ++ Sh.describe e)
        return none

def onPlaced (t : Tool) (o : Options) (never : Bool)
    (use : String → String → Sh (Option String)) : Sh Nat := do
  match ← t.placed o never with
  | none => return 1
  | some pairs => t.forEach pairs fun (source, destination) => use source destination

def target (path : String) : Sh (Except Errno Location) := do
  match ← Sh.resolveLink path with
  | .error .noEntry => vacancy (trimmed path)
  | found => return found

def sameFile (source destination : String) : Option String :=
  some (inQuotes source ++ " and " ++ inQuotes destination ++ " are the same file")

/-- Whether one may be put in place of what is at a location, and why not. -/
def obstacle? (l m : Location) (source destination : String) : Sh (Option String) := do
  let moving := "cannot move " ++ inQuotes source ++ " to "
  let overwriting := "cannot overwrite "
  let old? ← Sh.nodeAt m
  if l == m then return sameFile source destination
  else if !(← isDirectoryAt l) then
    return if old?.any Node.isDirectory then
      some (overwriting ++ "directory " ++ inQuotes destination ++ " with non-directory") else none
  else if l.isBelow m then
    return some (moving ++ "a subdirectory of itself, " ++ inQuotes destination)
  else if old?.any fun n => !n.isDirectory then
    return some (overwriting ++ "non-directory " ++ inQuotes destination ++ " with directory " ++
      inQuotes source)
  else if ((← Sh.host).tree.names m).isEmpty then return none
  else return some (moving ++ inQuotes destination ++ ": " ++ Sh.describe .notEmpty)

def mv (t : Tool) : Sh Nat :=
  t.withOptions ⟨"fT", ""⟩ false 1 fun o => t.onPlaced o (o.has 'T') fun source destination => do
    match ← Sh.resolveLink source, ← target destination with
    | .error e, _ => return some ("cannot stat " ++ inQuotes source ++ ": " ++ Sh.describe e)
    | .ok _, .error e =>
      return some ("cannot move " ++ inQuotes source ++ " to " ++ inQuotes destination ++ ": " ++
        Sh.describe e)
    | .ok l, .ok m =>
      let found ← obstacle? l m source destination
      if found.isNone then Sh.changeTree (·.move l m)
      return found

def cp (t : Tool) : Sh Nat :=
  t.withOptions ⟨"fp", ""⟩ false 1 fun o => t.onPlaced o false fun source destination => do
    let creating (e : Errno) : Option String :=
      some ("cannot create regular file " ++ inQuotes destination ++ ": " ++ Sh.describe e)
    match ← Sh.resolve source with
    | .error e => return some ("cannot stat " ++ inQuotes source ++ ": " ++ Sh.describe e)
    | .ok l =>
      match ← Sh.nodeAt l with
      | some .directory =>
        return some ("-r not specified; omitting directory " ++ inQuotes source)
      | some (.socket _) =>
        return some ("cannot open " ++ inQuotes source ++ " for reading: " ++
          Sh.describe .noDevice)
      | found? =>
        let copied := match found? with
          | some .device | none => Node.file .empty
          | some n => n
        let mode := ((← Sh.fileAt l).map (·.mode)).getD 0o666
        match ← Sh.resolve destination with
        | .ok m =>
          if l == m then return sameFile source destination
          else if ← isDirectoryAt m then return creating .isDirectory
          else
            if let some number := (← Sh.host).tree.number? m then
              Sh.changeNode number fun n => if n == .device then n else copied
            return none
        | .error _ =>
          match ← Sh.newPlace destination with
          | .error e => return creating e
          | .ok m =>
            Sh.place m copied mode
            return none

def ln (t : Tool) : Sh Nat :=
  t.withOptions ⟨"sfT", ""⟩ false 1 fun o =>
    let o := match o.operands with
      | [s] => { o with operands := [s, "./" ++ baseName s] }
      | _ => o
    t.onPlaced o (o.has 'T') fun source destination => do
      let kind := if o.has 's' then "symbolic link " else "hard link "
      let trouble (e : Errno) : Option String :=
        some ("failed to create " ++ kind ++ inQuotes destination ++ ": " ++ Sh.describe e)
      if o.has 'f' then
        if let .ok l ← Sh.resolveLink destination then
          unless ← isDirectoryAt l do Sh.changeTree (·.remove l)
      let place ← vacancy destination
      if o.has 's' then
        match place with
        | .error e => return trouble e
        | .ok l =>
          if source.isEmpty then return trouble .noEntry
          else
            let now := (← Sh.world).clock
            Sh.changeTree (·.putFile l ⟨.link (Latin1.encode source), 0o777, now⟩)
            return none
      else
        match ← Sh.resolveLink source, place with
        | .error e, _ => return some ("failed to access " ++ inQuotes source ++ ": " ++ Sh.describe e)
        | .ok _, .error e => return trouble e
        | .ok l, .ok m =>
          if ← isDirectoryAt l then
            return some (source ++ ": hard link not allowed for directory")
          else
            match (← Sh.host).tree.number? l with
            | none => return trouble .notPermitted
            | some number =>
              Sh.changeTree (·.link m number)
              return none

/-! ### What files are -/

def kindName : Node → String
  | .directory => "directory"
  | .file c => if c.isEmpty then "regular empty file" else "regular file"
  | .binary _ => "regular file"
  | .link _ => "symbolic link"
  | .socket _ => "socket"
  | .device => "character special file"

def sizeOf : Node → Nat
  | .directory => 4096
  | .link target => target.length
  | n => (contentOf n).size

def described (name : String) (f : File) : List Char → String
  | '%' :: c :: rest =>
    let text := match c with
      | 'n' => name
      | 's' => toString (sizeOf f.node)
      | 'a' => String.ofList (Nat.toDigits 8 f.mode)
      | 'F' => kindName f.node
      | '%' => "%"
      | c => "?" ++ String.singleton c
    text ++ described name f rest
  | c :: rest => String.singleton c ++ described name f rest
  | [] => ""

def stat (t : Tool) : Sh Nat :=
  t.onOperands ⟨"L", "c"⟩ fun o => t.forEach o.operands fun path => do
    match ← if o.has 'L' then Sh.resolve path else Sh.resolveLink path with
    | .ok l =>
      if let some f ← Sh.fileAt l then
        Sh.out (described path f ((o.value? 'c').getD "%n").toList ++ "\n")
      return none
    | .error e => return some ("cannot statx " ++ inQuotes path ++ ": " ++ Sh.describe e)

def listed (o : Options) (v : View) (l : Location) : List String :=
  let names := ((v.names l).map Latin1.decode).filter fun n =>
    o.has 'a' || o.has 'A' || n.toList.head? != some '.'
  (if o.has 'a' then "." :: ".." :: names else names).mergeSort fun a b => a ≤ b

def ls (t : Tool) : Sh Nat :=
  t.withOptions ⟨"1aAd", ""⟩ false 2 fun o => do
    let operands := (if o.operands.isEmpty then ["."] else o.operands).mergeSort fun a b => a ≤ b
    let mut status := 0
    let mut files : List String := []
    let mut directories : List (String × Location) := []
    for path in operands do
      match ← Sh.resolve path with
      | .ok l =>
        if (← isDirectoryAt l) && !o.has 'd' then directories := directories ++ [(path, l)]
        else files := files ++ [path]
      | .error e =>
        if (← Sh.linkNode? path).isSome then files := files ++ [path]
        else
          t.say ("cannot access " ++ inQuotes path ++ ": " ++ Sh.describe e)
          status := 2
    Sh.out (unlines files)
    let mut before := if files.isEmpty then "" else "\n"
    for (path, l) in directories do
      if operands.length > 1 then Sh.out (before ++ path ++ ":\n")
      Sh.out (unlines (listed o (← Sh.view) l))
      before := "\n"
    return status

end HelperHandoff.Host.Shell.Tool
