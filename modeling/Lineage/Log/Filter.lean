import Lineage.Log.Directive
import Lineage.Settings.Basic

/-!
# Log filters

A filter is a list of directives. Of those that are about an event, the one that says most about it
decides whether it is told. Directives are written with commas between them; those that mean nothing
are left out, and each is complained about.
-/

namespace Lineage

/-- A list of directives. -/
structure Filter where
  directives : List Directive
  deriving DecidableEq, Repr

namespace Filter

/-- The complaint about a text that is no directive. -/
def complaint (text : List Char) (flaw : Directive.Flaw) : String :=
  "ignoring \x60" ++ String.ofList text ++ "\x60: " ++ flaw.message

/-- Reads a filter, with complaints about the directives that are left out. A filter without any
directive tells errors only. -/
def read (text : String) : Filter × List String :=
  let pieces := (splitChars ',' text.toList).filter fun piece => !piece.isEmpty
  let directives := pieces.filterMap fun piece => (Directive.read piece).toOption
  let complaints := pieces.filterMap fun piece =>
    match Directive.read piece with
    | .ok _ => none
    | .error flaw => some (complaint piece flaw)
  (⟨if directives.isEmpty then [{ level := some .error }] else directives⟩, complaints)

/-- The directive that decides about an event: of those that are about it the one that says most,
and of equal ones the last. -/
def decisive? (f : Filter) (e : Event) : Option Directive :=
  (f.directives.filter fun d => d.concernsEvents && d.covers e).foldl (fun best d =>
    if best.all d.atLeast then some d else best) none

def tells (f : Filter) (e : Event) : Bool :=
  (f.decisive? e).any (·.tells e.level)

end Filter

namespace Logging

/-- Whether one override comes before another: by target, then by level. -/
def overrideBefore (a b : String × String) : Bool :=
  a.1 < b.1 || (a.1 == b.1 && a.2 ≤ b.2)

/-- The filter that settings describe: the level for all events, then those for single targets. A
stage stands for its target. -/
def filterText (l : Logging) (debug : Bool) : String :=
  let overrides := l.modules.entries.map fun (name, level) =>
    ((Stage.ofName? name).elim name Stage.target, level)
  ",".intercalate ((if debug then "debug" else l.default) ::
    (overrides.mergeSort overrideBefore).map fun (target, level) => target ++ "=" ++ level)

end Logging

namespace Event

/-- How a control character is written that terminals obey. -/
def escapeControl (c : Char) : List Char :=
  match c with
  | '\x1b' => "\\x1b".toList
  | '\x07' => "\\x07".toList
  | '\x08' => "\\x08".toList
  | '\x0c' => "\\x0c".toList
  | '\x7f' => "\\x7f".toList
  | c =>
    if 0x80 ≤ c.toNat ∧ c.toNat ≤ 0x9F then
      "\\u\x7b".toList ++ Nat.toDigits 16 c.toNat ++ ['\x7d']
    else [c]

/-- The line that tells an event. -/
def line (e : Event) : String :=
  let level := e.level.name
  String.ofList (List.replicate (5 - level.length) ' ') ++ level ++ " "
    ++ String.ofList (e.message.toList.flatMap escapeControl)

end Event

end Lineage
