import Lineage.Kind
import Lineage.Signature
import Lineage.Text.Blank
import Lineage.TypeName

/-!
# Declarations

A draft holds what somebody says about one type. `Draft.build` turns it into a declaration or names
the first thing that is wrong with it; on the way it drops methods that are listed again.
-/

namespace Lineage

/-- A declared method. -/
structure Method where
  signature : Signature
  isAbstract : Bool := false
  deriving DecidableEq, Repr, Inhabited

/-- What is said about one type, before any check. -/
structure Draft where
  name : String
  kind : TypeKind
  superclass : Option TypeName := none
  interfaces : List TypeName := []
  enclosingType : Option TypeName := none
  methods : List Method := []
  isFinal : Bool := false
  deriving DecidableEq, Repr, Inhabited

/-- A checked declaration, as `Draft.build` makes it. -/
structure Declaration where
  name : TypeName
  kind : TypeKind
  superclass : Option TypeName := none
  interfaces : List TypeName := []
  enclosingType : Option TypeName := none
  methods : List Method := []
  isFinal : Bool := false
  deriving DecidableEq, Repr, Inhabited

namespace Declaration

/-- The signatures declared abstract, in order. -/
def abstracts (d : Declaration) : List Signature :=
  (d.methods.filter (·.isAbstract)).map (·.signature)

/-- The signatures declared with a body, in order. -/
def concretes (d : Declaration) : List Signature :=
  (d.methods.filter (!·.isAbstract)).map (·.signature)

theorem mem_abstracts {d : Declaration} {s : Signature} :
    s ∈ d.abstracts ↔ ∃ m ∈ d.methods, m.isAbstract = true ∧ m.signature = s := by
  unfold abstracts
  simp only [List.mem_map, List.mem_filter, and_assoc]

theorem mem_concretes {d : Declaration} {s : Signature} :
    s ∈ d.concretes ↔ ∃ m ∈ d.methods, m.isAbstract = false ∧ m.signature = s := by
  unfold concretes
  simp only [List.mem_map, List.mem_filter, and_assoc, Bool.not_eq_true']

/-- Whether a declaration has a method of this signature, and if so whether it is abstract. -/
def declares (d : Declaration) (s : Signature) : Option Bool :=
  (d.methods.find? (·.signature = s)).map (·.isAbstract)

/-- A declaration read as a draft again. -/
def toDraft (d : Declaration) : Draft where
  name := d.name
  kind := d.kind
  superclass := d.superclass
  interfaces := d.interfaces
  enclosingType := d.enclosingType
  methods := d.methods
  isFinal := d.isFinal

end Declaration

/-- What can be wrong with a draft. -/
inductive Flaw
  | emptyName
  | interfaceWithSuperclass (superclass : TypeName)
  | emptySupertype
  | repeatedInterface (interface : TypeName)
  | enclosesItself
  | emptyMethodName
  | conflictingMethod (signature : Signature)
  deriving DecidableEq, Repr

def Flaw.reason : Flaw → String
  | emptyName => "type name is empty"
  | interfaceWithSuperclass superclass => "interface cannot extend class '" ++ superclass ++ "'"
  | emptySupertype => "empty supertype reference"
  | repeatedInterface interface => "interface '" ++ interface ++ "' listed more than once"
  | enclosesItself => "type cannot enclose itself"
  | emptyMethodName => "method name is empty"
  | conflictingMethod signature =>
    "method '" ++ signature.text ++ "' declared both abstract and concrete"

/-- The outcome of going through a list of methods: the methods kept or the first flaw, and the
signatures that were listed again before that. -/
structure Methods.Settled where
  collapsed : List Signature
  methods : Except Flaw (List Method)

/-- The first entry of a list that occurs earlier in it. -/
def firstRepeated (seen : List TypeName) : List TypeName → Option TypeName
  | [] => none
  | x :: xs => if x ∈ seen then some x else firstRepeated (x :: seen) xs

namespace Draft

/-- Goes through the methods of a draft in order, given those kept so far: a method listed again
is dropped, one listed again with the other body is a flaw, and so is a blank name. -/
def settle (kept : List Method) : List Method → Methods.Settled
  | [] => ⟨[], .ok kept⟩
  | m :: ms =>
    if isBlankText m.signature.name then ⟨[], .error .emptyMethodName⟩
    else
      match kept.find? (·.signature = m.signature) with
      | none => settle (kept ++ [m]) ms
      | some first =>
        if first.isAbstract = m.isAbstract then
          let rest := settle kept ms
          ⟨m.signature :: rest.collapsed, rest.methods⟩
        else ⟨[], .error (.conflictingMethod m.signature)⟩

/-- The name under which the type of a draft is declared. -/
def declaredName (d : Draft) : TypeName :=
  trim d.name

/-- The first flaw of a draft outside its methods. -/
def flaw? (d : Draft) : Option Flaw :=
  if d.declaredName = "" then some .emptyName
  else
    match d.kind, d.superclass with
    | .interface, some superclass => some (.interfaceWithSuperclass superclass)
    | _, _ =>
      if d.superclass.any isBlankText || d.interfaces.any isBlankText then some .emptySupertype
      else
        match firstRepeated [] d.interfaces with
        | some interface => some (.repeatedInterface interface)
        | none =>
          if d.enclosingType = some d.declaredName then some .enclosesItself
          else none

/-- The declaration of a draft, or its first flaw. -/
def build (d : Draft) : Except Flaw Declaration :=
  match d.flaw? with
  | some flaw => .error flaw
  | none =>
    match (settle [] d.methods).methods with
    | .error flaw => .error flaw
    | .ok methods => .ok { d with name := d.declaredName, methods }

/-- A draft that can be built keeps all that it says, but for the white space around its name and
for methods that are listed again. -/
theorem build_eq_ok_iff {d : Draft} {c : Declaration} :
    d.build = .ok c ↔ d.flaw? = none ∧ ∃ methods, (settle [] d.methods).methods = .ok methods ∧
      c = { name := d.declaredName, kind := d.kind, superclass := d.superclass,
            interfaces := d.interfaces, enclosingType := d.enclosingType, methods,
            isFinal := d.isFinal } := by
  unfold build
  cases d.flaw? with
  | some flaw => exact iff_of_false (fun h => nomatch h) fun h => nomatch h.1
  | none =>
    cases (settle [] d.methods).methods with
    | error flaw => exact iff_of_false (fun h => nomatch h) fun ⟨_, _, h, _⟩ => nomatch h
    | ok methods =>
      refine ⟨fun h => ⟨rfl, methods, rfl, (Except.ok.inj h).symm⟩, ?_⟩
      rintro ⟨-, _, hmethods, rfl⟩
      rw [Except.ok.inj hmethods]

/-- The signatures that building a draft finds listed again. -/
def collapsed (d : Draft) : List Signature :=
  if d.flaw?.isSome then [] else (settle [] d.methods).collapsed

end Draft

end Lineage
