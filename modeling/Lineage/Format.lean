/-!
# Output formats

The two ways in which results are written, and how one is chosen.
-/

namespace Lineage

/-- How results are written. -/
inductive OutputFormat
  | text
  | json
  deriving DecidableEq, Repr, Inhabited

namespace OutputFormat

def key : OutputFormat → String
  | text => "text"
  | json => "json"

def ofKey? (word : String) : Option OutputFormat :=
  [text, json].find? (·.key = word)

/-- The format to use: JSON if it is asked for, and else the one of the settings. -/
def choose (asked : Bool) (settled : OutputFormat) : OutputFormat :=
  if asked then json else settled

@[simp]
theorem ofKey?_key (f : OutputFormat) : ofKey? f.key = some f := by
  cases f <;> decide

end OutputFormat

end Lineage
