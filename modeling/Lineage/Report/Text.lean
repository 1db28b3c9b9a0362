import Lineage.Report

/-!
# Reports as text

One line for the source, then the error, or a paragraph for each type. Types that owe nothing can be
left out. On terminals the mark of the status and the word for what is missing can have a colour.
-/

namespace Lineage

/-- The colours of words. -/
inductive Colour
  | red
  | green
  | yellow
  deriving DecidableEq, Repr

/-- The number by which terminals know a colour. -/
def Colour.number : Colour → String
  | red => "31"
  | green => "32"
  | yellow => "33"

/-- A text in a colour, as terminals take it. -/
def Colour.paint (c : Colour) (text : String) : String :=
  "\x1b[" ++ c.number ++ "m" ++ text ++ "\x1b[0m"

def Status.colour : Status → Colour
  | ok => .green
  | incomplete => .yellow
  | failed => .red

/-- How reports are written. -/
structure Report.Style where
  /-- Whether types are shown that owe nothing. -/
  showClean : Bool := true
  coloured : Bool := false
  deriving DecidableEq, Repr

/-- A text in a colour, if a style has colours. -/
def Report.Style.paint (s : Report.Style) (c : Colour) (text : String) : String :=
  if s.coloured then c.paint text else text

namespace TypeReport

/-- The lines about one type. -/
def lines (s : Report.Style) (t : TypeReport) : List String :=
  ["  " ++ t.name ++ " (" ++ t.category.label ++ ")"]
    ++ t.superclass.toList.map (fun name => "    extends: " ++ name)
    ++ labelled "interfaces:" ", " t.interfaces
    ++ labelled "enclosed by:" " < " t.enclosing
    ++ labelled (s.paint .yellow "missing:") ", " (t.owed.map (·.text))
where
  /-- A line for a list that is not empty. -/
  labelled (label separator : String) (names : List String) : List String :=
    if names.isEmpty then [] else ["    " ++ label ++ " " ++ separator.intercalate names]

end TypeReport

namespace Report

def lines (r : Report) (s : Style) : List String :=
  (s.paint r.status.colour r.status.mark ++ " " ++ r.source) ::
    match r.outcome with
    | .failed error => ["  error[" ++ error.key ++ "]: " ++ error.message]
    | .built report =>
      (report.types.filter fun t => s.showClean || !t.owed.isEmpty).flatMap (·.lines s)

def text (r : Report) (s : Style) : String :=
  String.join ((r.lines s).map (· ++ "\n"))

end Report

end Lineage
