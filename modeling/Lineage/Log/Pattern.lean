import Lineage.Log.Nesting
import Lineage.Text.Blank
import Lineage.Text.Hex
import Lineage.Text.Letter

/-!
# Patterns

A log filter may give a regular expression for the value of a field. No event has a value to compare
with it, but an expression that cannot be built makes the whole directive void, so expressions are
read here to find out whether they can be built; `Pattern.check` is the answer.

Expressions are about text in Unicode. There are no tables of properties behind them: digits, blanks
and letters as classes, and letters in either case, are known only where Unicode is switched off.
Where it is off, nothing may be matched that is no text. Repetition with counts is unknown.
-/

namespace Lineage

namespace Pattern

/-- Why an expression cannot be built. -/
inductive Flaw
  /-- It is no expression, is nested too deep, or asks for tables that are missing. -/
  | malformed
  /-- It asks for the edge of a word in Unicode. -/
  | wordEdge
  deriving DecidableEq, Repr

/-- What is switched on at a place in an expression. -/
structure Mode where
  anyCase : Bool := false
  unicode : Bool := true
  /-- Whether white space and comments may stand between the parts. -/
  spaced : Bool := false
  deriving DecidableEq, Repr

/-- A text without the white space and the comments at its start. -/
def skipSpaced (inComment : Bool) : List Char → List Char
  | [] => []
  | c :: rest =>
    if inComment then skipSpaced (c ≠ '\n') rest
    else if c = '#' then skipSpaced true rest
    else if isBlank c then skipSpaced false rest
    else c :: rest

namespace Mode

/-- A text without what may stand between the parts of an expression. -/
def skip (m : Mode) (cs : List Char) : List Char :=
  if m.spaced then skipSpaced false cs else cs

/-- What seems to come next. A glance passes over white space and the mark of a comment, but takes
the comment itself for a part of the expression. -/
def glance (m : Mode) (cs : List Char) : Option Char :=
  if m.spaced then
    match cs.dropWhile isBlank with
    | '#' :: rest => (rest.dropWhile isBlank).head?
    | rest => rest.head?
  else cs.head?

/-- Whether it is known what matches a character: not if it may come in either case of Unicode. -/
def knowsChars (m : Mode) : Bool :=
  !(m.unicode && m.anyCase)

/-- The mode with a switch set. Other switches do not matter here. -/
def set (m : Mode) (on : Bool) : Char → Mode
  | 'i' => { m with anyCase := on }
  | 'u' => { m with unicode := on }
  | 'x' => { m with spaced := on }
  | _ => m

end Mode

/-! ## Escapes -/

/-- What stands behind a backslash. -/
inductive Escape
  /-- A character, which may be written as a byte. -/
  | literal (c : Char) (isByte : Bool)
  /-- The class of digits, of white space or of letters in words, or all but it. -/
  | shorthand (negated : Bool)
  /-- The start or the end of the text. -/
  | textEdge
  /-- The start or the end of a word, or any other place. -/
  | wordEdge

/-- Reads so many hexadecimal digits. -/
def readDigits (m : Mode) : Nat → List Char → Option (List Char × List Char)
  | 0, cs => some ([], cs)
  | count + 1, cs =>
    match m.skip cs with
    | [] => none
    | c :: rest => do
      let (digits, rest) ← readDigits m count rest
      return (c :: digits, rest)

/-- Reads a character that is given by so many hexadecimal digits. -/
def readCode (m : Mode) (count : Nat) (cs : List Char) : Option (Escape × List Char) := do
  let (digits, rest) ← readDigits m count cs
  let value ← hexValue? digits
  guard value.isValidChar
  return (.literal (Char.ofNat value) (count = 2), rest)

/-- The characters that letters stand for behind a backslash. -/
def controlLetters : List (Char × Char) :=
  [('a', '\x07'), ('f', '\x0c'), ('t', '\t'), ('n', '\n'), ('r', '\r'), ('v', '\x0b')]

/-- Reads what stands behind a backslash. Marks stand for themselves; a digit or a letter without a
meaning must not stand there, and nothing beyond ASCII. -/
def readEscape (m : Mode) : List Char → Option (Escape × List Char)
  | [] => none
  | c :: rest =>
    match c with
    | 'x' => readCode m 2 rest
    | 'u' => readCode m 4 rest
    | 'U' => readCode m 8 rest
    | 'd' | 's' | 'w' => some (.shorthand false, rest)
    | 'D' | 'S' | 'W' => some (.shorthand true, rest)
    | 'A' | 'z' => some (.textEdge, rest)
    | 'b' | 'B' | '<' | '>' => some (.wordEdge, rest)
    | c =>
      match controlLetters.lookup c with
      | some control => some (.literal control false, rest)
      | none => if c.isAlphanum || c.toNat ≥ 0x80 then none else some (.literal c false, rest)

/-! ## Classes -/

/-- The names of classes within classes. -/
def classNames : List String :=
  ["alnum", "alpha", "ascii", "blank", "cntrl", "digit", "graph", "lower", "print", "punct",
    "space", "upper", "word", "xdigit"]

/-- Reads a named class after its opening bracket. The truth value tells whether all but its
characters are meant. -/
def readNamed : List Char → Option (Bool × List Char)
  | ':' :: rest => do
    let (negated, rest) :=
      match rest with
      | '^' :: rest => (true, rest)
      | rest => (false, rest)
    let name := rest.takeWhile (· ≠ ':')
    match rest.drop name.length with
    | ':' :: ']' :: after =>
      if classNames.contains (String.ofList name) then some (negated, after) else none
    | _ => none
  | _ => none

/-- Reads a member of a class: a character, with which a range may start or end, or a class. -/
def readMember (m : Mode) (cs : List Char) : Option (Option Char × List Char) := do
  let (member, rest) ←
    match cs with
    | [] => none
    | '\\' :: rest => readEscape m rest
    | c :: rest => some (.literal c false, rest)
  match member with
  | .literal c _ => if m.unicode || c.toNat < 0x80 then some (some c, rest) else none
  | .shorthand negated => if m.unicode || negated then none else some (none, rest)
  | _ => none

/-- Reads a member or a range of a class. A hyphen that looks to be before the closing bracket or
before another hyphen makes no range. -/
def readRange (m : Mode) (cs : List Char) : Option (List Char) := do
  let (low, rest) ← readMember m cs
  match m.skip rest with
  | '-' :: after =>
    if [some ']', some '-'].contains (m.glance after) then some ('-' :: after)
    else do
      let (high, rest) ← readMember m (m.skip after)
      guard ((← low) ≤ (← high))
      return rest
  | rest => some rest

/-- Where in a class a character stands. -/
inductive Position
  /-- Behind the opening bracket. -/
  | opened
  /-- Behind the mark that all but the members are meant. -/
  | negated
  /-- Behind hyphens with which the class starts. -/
  | hyphened
  | inside
  deriving DecidableEq, Repr

/-- Classes one within another, as far as they are read. -/
structure Brackets where
  /-- What the innermost class holds. -/
  layer : Layer := {}
  /-- What the classes around it hold. -/
  outer : List Layer := []
  position : Position := .opened

namespace Brackets

/-- One more member is read, at which no class is opened or closed. -/
def member? (b : Brackets) (m : Mode) (position : Position) : Option Brackets :=
  if m.knowsChars then some { b with layer := b.layer.add 0, position } else none

/-- A class is opened. -/
def enter (b : Brackets) : Brackets :=
  { layer := {}, outer := b.layer :: b.outer, position := .opened }

end Brackets

/-- Reads classes one within another and tells how deep the outermost one is. -/
def readClass (m : Mode) (b : Brackets) (cs : List Char) : Option (Nat × List Char) := do
  let goOn (b : Brackets) (rest : List Char) : Option (Nat × List Char) :=
    if rest.length < cs.length then readClass m b rest else none
  match m.skip cs with
  | [] => none
  | c :: rest =>
    match b.position, c, rest with
    | .opened, '^', rest => if m.unicode then goOn { b with position := .negated } rest else none
    | .opened, '-', rest | .negated, '-', rest | .hyphened, '-', rest =>
      do goOn (← b.member? m .hyphened) rest
    | .opened, ']', rest | .negated, ']', rest => do goOn (← b.member? m .inside) rest
    | _, ']', rest =>
      let depth := b.layer.depth + 1
      match b.outer with
      | [] => some (depth, rest)
      | layer :: outer => goOn ⟨layer.add depth, outer, .inside⟩ rest
    | _, '[', rest =>
      match readNamed rest with
      | some (negated, after) =>
        if negated && !m.unicode then none else do goOn (← b.member? m .inside) after
      | none => goOn b.enter rest
    | _, '&', '&' :: rest | _, '-', '-' :: rest | _, '~', '~' :: rest =>
      goOn { b with layer := b.layer.operate, position := .inside } rest
    | _, c, rest => do goOn (← b.member? m .inside) (← readRange m (c :: rest))
termination_by cs.length

/-! ## Groups -/

def switchLetters : List Char := ['i', 'm', 's', 'U', 'u', 'R', 'x']

/-- Switches as far as they are read. -/
structure Switches where
  mode : Mode
  /-- The letters and the hyphen, the last one first. -/
  seen : List Char := []

/-- Reads switches up to a colon or a closing bracket, which comes back with the rest. None may come
twice, and behind the hyphen, from which on they are switched off, there must be one. -/
def readSwitches (s : Switches) : List Char → Option (Switches × List Char)
  | [] => none
  | c :: rest =>
    if c = ':' || c = ')' then if s.seen.head? = some '-' then none else some (s, c :: rest)
    else if s.seen.contains c then none
    else if c = '-' then readSwitches { s with seen := c :: s.seen } rest
    else if switchLetters.contains c then
      readSwitches ⟨s.mode.set (!s.seen.contains '-') c, c :: s.seen⟩ rest
    else none

/-- Whether characters are the name of a group. -/
def isGroupName : List Char → Bool
  | [] => false
  | c :: rest =>
    (c = '_' || isLetter c)
      && rest.all fun c => ['_', '.', '[', ']'].contains c || isLetterOrNumeral c

/-! ## Expressions -/

/-- An expression as far as it is read. -/
structure Progress where
  mode : Mode := {}
  /-- What is read of the innermost open group. -/
  layer : Layer := {}
  /-- The modes to go back to behind the groups that are open, and what stands before these. -/
  outer : List (Mode × Layer) := []
  /-- The names of groups. -/
  names : List (List Char) := []
  /-- Whether the edge of a word in Unicode was asked for. -/
  hasWordEdge : Bool := false

namespace Progress

/-- One more part of a depth is read. -/
def part (p : Progress) (depth : Nat) (rest : List Char) : Progress × List Char :=
  ({ p with layer := p.layer.add depth }, rest)

/-- The last part is repeated. -/
def repeat? (p : Progress) (rest : List Char) : Option (Progress × List Char) := do
  let row ← p.layer.row.repeat?
  return ({ p with layer.row := row }, rest)

/-- A group is opened in which a mode holds. -/
def enter (p : Progress) (mode : Mode) (rest : List Char) : Progress × List Char :=
  ({ p with mode, layer := {}, outer := (p.mode, p.layer) :: p.outer }, rest)

/-- The innermost group is closed. -/
def leave? (p : Progress) (rest : List Char) : Option (Progress × List Char) :=
  match p.outer with
  | (mode, layer) :: outer => some ({ p with mode, layer, outer }.part (p.layer.depth + 1) rest)
  | [] => none

/-- Reads the name of a group, up to the bracket that closes it. -/
def enterNamed (p : Progress) (cs : List Char) : Option (Progress × List Char) :=
  let name := cs.takeWhile (· ≠ '>')
  match cs.drop name.length with
  | _ :: rest =>
    if isGroupName name && !p.names.contains name then
      some ({ p with names := name :: p.names }.enter p.mode rest)
    else none
  | [] => none

/-- Reads the start of a group after its opening bracket, or switches that stand alone. -/
def open? (p : Progress) (cs : List Char) : Option (Progress × List Char) :=
  match cs with
  | '?' :: 'P' :: '<' :: rest | '?' :: '<' :: rest => p.enterNamed rest
  | '?' :: rest => do
    match ← readSwitches ⟨p.mode, []⟩ rest with
    | (s, ':' :: rest) => return p.enter s.mode rest
    | (s, _ :: rest) =>
      if s.seen.isEmpty then none
      else return ({ p with mode := s.mode, layer.row := p.layer.row.addSwitches }, rest)
    | (_, []) => none
  | rest => some (p.enter p.mode rest)

/-- Whether a character may stand for itself. -/
def allows (p : Progress) (c : Char) (isByte : Bool) : Bool :=
  p.mode.knowsChars && (p.mode.unicode || !isByte || c.toNat < 0x80)

/-- Reads an escape outside of classes. -/
def escape? (p : Progress) (cs : List Char) : Option (Progress × List Char) := do
  let (escape, rest) ← readEscape p.mode cs
  match escape with
  | .literal c isByte => if p.allows c isByte then some (p.part 0 rest) else none
  | .shorthand negated => if p.mode.unicode || negated then none else some (p.part 0 rest)
  | .textEdge => some (p.part 0 rest)
  | .wordEdge => some ({ p with hasWordEdge := p.hasWordEdge || p.mode.unicode }.part 0 rest)

def step? (p : Progress) : List Char → Option (Progress × List Char)
  | [] => none
  | c :: rest =>
    match c with
    | '(' => p.open? (p.mode.skip rest)
    | ')' => p.leave? rest
    | '|' => some ({ p with layer := p.layer.branch }, rest)
    | '[' => (readClass p.mode {} rest).map fun (depth, rest) => p.part depth rest
    | '?' | '*' | '+' =>
      match rest with
      | '?' :: rest => p.repeat? rest
      | rest => p.repeat? rest
    | '\x7b' => none
    | '\\' => p.escape? rest
    | '.' => if p.mode.unicode then some (p.part 0 rest) else none
    | '^' | '$' => some (p.part 0 rest)
    | c => if p.allows c false then some (p.part 0 rest) else none

/-- Reads the rest of an expression, in which all groups must be closed and no part may be nested
too deep. -/
def finish? (p : Progress) (cs : List Char) : Option Progress :=
  match p.mode.skip cs with
  | [] => if p.outer.isEmpty && p.layer.depth ≤ maxDepth then some p else none
  | start => do
    let (p, rest) ← p.step? start
    if rest.length < cs.length then p.finish? rest else none
termination_by cs.length

end Progress

/-- Whether an expression can be built, and else why not. -/
def check (cs : List Char) : Except Flaw Unit :=
  match Progress.finish? {} cs with
  | none => .error .malformed
  | some p => if p.hasWordEdge then .error .wordEdge else .ok ()

end Pattern

end Lineage
