import Lineage.Hierarchy
import Lineage.Json

/-!
# Questions

The questions that can be asked about a hierarchy, and their answers as data and as text.
-/

namespace Lineage

/-- A question about a hierarchy. -/
inductive Question
  | subtype (sub super : TypeName)
  | ancestors (name : TypeName)
  | interfaces (name : TypeName)
  | enclosing (name : TypeName)
  | abstracts (name : TypeName)
  | subtypes (name : TypeName)
  deriving DecidableEq, Repr

/-- An answer: yes or no, or a list of names. -/
inductive Answer
  | truth (value : Bool)
  | names (list : List String)
  deriving DecidableEq, Repr

namespace Question

def key : Question → String
  | subtype .. => "subtype"
  | ancestors _ => "ancestors"
  | interfaces _ => "interfaces"
  | enclosing _ => "enclosing"
  | abstracts _ => "abstracts"
  | subtypes _ => "subtypes"

def ofKey? (word : String) (name : TypeName) : Option Question :=
  [ancestors name, interfaces name, enclosing name, abstracts name, subtypes name].find?
    (·.key = word)

def answer (h : Hierarchy) : Question → Except UnknownType Answer
  | subtype sub super => (h.isSubtypeOf sub super).map .truth
  | ancestors name => (h.ancestorsOf name).map .names
  | interfaces name => (h.interfacesOf name).map .names
  | enclosing name => (h.enclosingChainOf name).map .names
  | abstracts name => (h.owedBy name).map fun owed => .names (owed.map (·.text))
  | subtypes name => (h.subtypesOf name).map .names

end Question

namespace Answer

def toJson : Answer → Json
  | truth value => .boolean value
  | names list => .strings list

/-- An answer as text, one name on each line. -/
def text : Answer → String
  | truth value => if value then "true" else "false"
  | names [] => "(none)"
  | names list => "\n".intercalate list

end Answer

end Lineage
