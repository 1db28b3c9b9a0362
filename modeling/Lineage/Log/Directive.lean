import Lineage.Log.Event
import Lineage.Log.Pattern
import Lineage.Text.Bytes
import Lineage.Text.Split

/-!
# Directives of log filters

A directive gives a level for all events, or for those of some targets, or for those with some
field. It may also name a span of time, or ask for the value of a field; such directives say nothing
about events, which belong to no span and have no values. In writing, a directive is a level, a
target, or a target with a span and a field in brackets and a level behind an equals sign.
-/

namespace Lineage

/-- What a directive asks of a field: that it is there, or also that it has some value. -/
structure FieldTest where
  name : String
  hasValue : Bool := false
  deriving DecidableEq, Repr

/-- Which events are told. -/
structure Directive where
  /-- How the targets start that are meant, or else all targets. -/
  target : Option String := none
  /-- The span that is meant. -/
  span : Option String := none
  /-- The field that is meant. -/
  field : Option FieldTest := none
  /-- The least important level that is told, if any is. -/
  level : Option Level := some .trace
  deriving DecidableEq, Repr

namespace FieldTest

/-- Whether a text is a number, finite or not. -/
def isNumber (cs : List Char) : Bool :=
  let isDigits (cs : List Char) : Bool := !cs.isEmpty && cs.all Char.isDigit
  let word := (splitSign cs).2
  let (mantissa, exponent) := splitAtFirst (fun c => c = 'e' || c = 'E') word
  let (whole, decimals) := splitAtFirst (· = '.') mantissa
  ["inf", "infinity", "nan"].contains (String.ofList (word.map Char.toLower))
    || isDigits (whole ++ decimals.getD []) && exponent.all fun cs => isDigits (splitSign cs).2

/-- Reads a name, or a name and a value behind an equals sign. A value that is no number is a
pattern; what follows a further equals sign counts for nothing. -/
def read (cs : List Char) : Except Pattern.Flaw FieldTest :=
  match splitChars '=' cs with
  | name :: value :: _ => do
    unless isNumber value do Pattern.check value
    return ⟨String.ofList name, true⟩
  | _ => .ok ⟨String.ofList cs, false⟩

end FieldTest

namespace Directive

/-! ## Levels in writing -/

/-- Why a text is no directive. -/
inductive Flaw
  | malformed
  | unknownLevel
  | badPattern (flaw : Pattern.Flaw)
  deriving DecidableEq, Repr

def Flaw.message : Flaw → String
  | malformed => "invalid filter directive"
  | unknownLevel =>
    "error parsing level filter: expected one of \"off\", \"error\", \"warn\", \"info\", "
      ++ "\"debug\", \"trace\", or a number 0-5"
  | badPattern .malformed => "invalid field filter: error building NFA"
  | badPattern .wordEdge =>
    "invalid field filter: unsupported regex feature for DFAs: cannot build DFAs for regexes with "
      ++ "Unicode word boundaries; switch to ASCII word boundaries, or heuristically enable "
      ++ "Unicode word boundaries or use a different regex engine"

/-- The levels with the words and the numbers for them, beginning with none. -/
def levels : List (Option Level) :=
  [none, some .error, some .warn, some .info, some .debug, some .trace]

def levelWord (level : Option Level) : List Char :=
  (level.elim "OFF" Level.name).toList

/-- The number that a text is. -/
def number? (cs : List Char) : Option Nat :=
  let digits := match cs with
    | '+' :: rest => rest
    | cs => cs
  if digits.isEmpty || !digits.all Char.isDigit then none
  else some (digits.foldl (fun n c => n * 10 + (c.toNat - '0'.toNat)) 0)

/-- The level that a text names in any case, or by its number. -/
def level? (cs : List Char) : Option (Option Level) :=
  match number? cs with
  | some n => levels[n]?
  | none => levels.find? fun level => levelWord level = cs.map Char.toUpper

/-- Reads the level that starts at a byte of a text. There may be none, and all levels are meant. -/
def readLevel (text : List Char) (start : Nat) : Except Flaw (Option Level) :=
  match charsFrom start text with
  | [] => .ok (some .trace)
  | word =>
    match level? word with
    | some level => .ok level
    | none => .error .unknownLevel

/-! ## Reading

The parts of a directive are found in the text without the white space at its ends, but their words
are read off at the same places of the whole text. So white space in front moves the words, and
white space at the end belongs to the last one.
-/

/-- Whether a directive may start with a character: a letter, a number, or one of three marks. -/
def isStart (c : Char) : Bool :=
  ['-', ':', '_'].contains c || isLetterOrNumeral c

/-- Reads what follows the brackets: nothing, or a level. -/
def readEnd (text : List Char) (d : Directive) (start : Nat) : List Char → Except Flaw Directive
  | [] => .ok d
  | '=' :: _ => do return { d with level := ← readLevel text (start + 1) }
  | _ => .error .malformed

/-- Reads a field after its opening brace, up to the end. -/
def readField (text : List Char) (d : Directive) (start : Nat) (cs : List Char) :
    Except Flaw Directive :=
  let inner := cs.takeWhile (· ≠ '\x7d')
  let stop := start + byteLength inner
  match cs.drop inner.length, charsBetween start stop text with
  | [], _ | _, [] => .error .malformed
  | _ :: rest, word => do
    let field ← (FieldTest.read word).mapError .badPattern
    match rest with
    | ']' :: rest => readEnd text { d with field } (stop + 2) rest
    | _ => .error .malformed

/-- Reads a span after its opening bracket, up to the end. A span without a name before a field is
any span or none. -/
def readSpan (text : List Char) (d : Directive) (start : Nat) (cs : List Char) :
    Except Flaw Directive :=
  let inner := cs.takeWhile fun c => c ≠ ']' && c ≠ '\x7b'
  let stop := start + byteLength inner
  let word := charsBetween start stop text
  match cs.drop inner.length with
  | ']' :: rest => readEnd text { d with span := some (String.ofList word) } (stop + 1) rest
  | _ :: rest =>
    let span := if word.isEmpty then none else some (String.ofList word)
    readField text { d with span } (stop + 1) rest
  | [] => .error .malformed

/-- Reads a directive. A word that is no level is a target. -/
def read (text : List Char) : Except Flaw Directive :=
  match trimChars text with
  | [] => .error .malformed
  | '[' :: rest => readSpan text {} 1 rest
  | first :: rest =>
    let cs := first :: rest
    if !isStart first then .error .malformed
    else
      let name := cs.takeWhile fun c => c ≠ '=' && c ≠ '['
      let stop := byteLength name
      let target := String.ofList (charsBetween 0 stop text)
      match cs.drop name.length with
      | '[' :: rest => readSpan text { target := some target } (stop + 1) rest
      | _ :: _ => do return { target := some target, level := ← readLevel text (stop + 1) }
      | [] =>
        match level? text with
        | some level => .ok { level }
        | none => .ok { target := some (String.ofList text) }

/-! ## What a directive decides -/

/-- Whether a directive says something about events. -/
def concernsEvents (d : Directive) : Bool :=
  d.span.isNone && d.field.all (!·.hasValue)

/-- Whether a directive is about an event. -/
def covers (d : Directive) (e : Event) : Bool :=
  (d.target.all fun start => start.toList.isPrefixOf e.stage.target.toList)
    && d.field.all fun field => Event.fieldNames.contains field.name

/-- How much of a target a directive names. -/
def targetWeight (d : Directive) : Nat :=
  d.target.elim 0 fun start => start.length + 1

/-- Whether a directive says at least as much about an event as another one that is about it: more
of the target, or as much of it and no less about the fields. -/
def atLeast (d other : Directive) : Bool :=
  other.targetWeight < d.targetWeight
    || other.targetWeight = d.targetWeight && (d.field.isSome || other.field.isNone)

/-- Whether a directive lets events of a level be told. -/
def tells (d : Directive) (level : Level) : Bool :=
  d.level.any fun least => level.rank ≤ least.rank

end Directive

end Lineage
