import Lineage.Json.Token

/-!
# Reading JSON

A machine over tokens: the stack holds the arrays and objects that are still open, and the state
says what may come next. Not more than 127 of them may be open at once. A reader who wants only some
members of an object names them; the values of all others are dropped, and it is enough that they
are well-formed.
-/

namespace Lineage

namespace Json

/-- An array or object that is still open, with what it holds so far in reverse. The key of a
member is set while its value is read. -/
inductive Frame
  | array (reversed : List Json)
  | object (reversed : List (String × Json)) (key : Option String)
  deriving Repr

/-- What may come next. -/
inductive Expected
  /-- A value. -/
  | value
  /-- A value or the end of an array without items. -/
  | firstItem
  /-- A key or the end of an object without members. -/
  | firstKey
  /-- A key. -/
  | key
  /-- The colon after a key. -/
  | colon
  /-- A comma, or the end of the array or object. -/
  | separator
  deriving DecidableEq, Repr

/-- A value that is partly read: the open arrays and objects, innermost first. -/
structure Partial where
  stack : List Frame
  expected : Expected
  deriving Repr

/-- A value that is read at least in part. -/
inductive Progress
  | open (state : Partial)
  | done (value : Json)
  deriving Repr

/-- How many arrays and objects may be open at once. -/
def depthLimit : Nat := 127

namespace Partial

/-- Whether the state is inside a member of the outermost object that nobody wants. -/
def isUnwanted (p : Partial) (wanted : Option (List String)) : Bool :=
  match wanted, p.stack.getLast? with
  | some names, some (.object _ (some key)) => !names.contains key
  | _, _ => false

/-- Puts a complete value in its place. -/
def complete (p : Partial) (wanted : Option (List String)) (value : Json) : Progress :=
  match p.stack with
  | [] => .done value
  | .array items :: outer => .open ⟨.array (value :: items) :: outer, .separator⟩
  | .object members key :: outer =>
    let kept :=
      if outer.isEmpty && p.isUnwanted wanted then members
      else key.toList.map (·, value) ++ members
    .open ⟨.object kept none :: outer, .separator⟩

/-- Opens an array or object. -/
def push (p : Partial) (wanted : Option (List String)) (frame : Frame) (expected : Expected) :
    Except Fault Progress :=
  if p.stack.length < depthLimit || p.isUnwanted wanted then
    .ok (.open ⟨frame :: p.stack, expected⟩)
  else .error .malformed

/-- Closes the innermost array or object. -/
def close (p : Partial) (wanted : Option (List String)) : Progress :=
  match p.stack with
  | [] => .open p
  | .array items :: outer => complete { p with stack := outer } wanted (.array items.reverse)
  | .object members _ :: outer =>
    complete { p with stack := outer } wanted (.object members.reverse)

/-- Reads the first token of a value. -/
def startValue (p : Partial) (wanted : Option (List String)) : Token → Except Fault Progress
  | .scalar value => .ok (p.complete wanted value)
  | .string value => .ok (p.complete wanted (.string value))
  | .unpaired | .huge =>
    if p.isUnwanted wanted then .ok (p.complete wanted .null) else .error .malformed
  | .openArray => p.push wanted (.array []) .firstItem
  | .openObject => p.push wanted (.object [] none) .firstKey
  | .fault fault _ => .error fault
  | _ => .error .malformed

def readKey (p : Partial) (wanted : Option (List String)) : Token → Except Fault Progress
  | .string key => .ok (.open ⟨withKey key p.stack, .colon⟩)
  | .unpaired =>
    if p.isUnwanted wanted then .ok (.open ⟨withKey "" p.stack, .colon⟩) else .error .malformed
  | .fault fault true => .error fault
  | _ => .error .malformed
where
  /-- The stack with a key for the next member. -/
  withKey (key : String) : List Frame → List Frame
    | .object members _ :: outer => .object members (some key) :: outer
    | stack => stack

def inArray (p : Partial) : Bool :=
  match p.stack with
  | .array _ :: _ => true
  | _ => false

def step (p : Partial) (wanted : Option (List String)) (token : Token) : Except Fault Progress :=
  match p.expected, token with
  | .value, token => p.startValue wanted token
  | .firstItem, .closeArray => .ok (p.close wanted)
  | .firstItem, token => p.startValue wanted token
  | .firstKey, .closeObject => .ok (p.close wanted)
  | .firstKey, token => p.readKey wanted token
  | .key, token => p.readKey wanted token
  | .colon, .colon => .ok (.open { p with expected := .value })
  | .colon, _ => .error .malformed
  | .separator, .comma => .ok (.open { p with expected := if p.inArray then .value else .key })
  | .separator, .closeArray => if p.inArray then .ok (p.close wanted) else .error .malformed
  | .separator, .closeObject => if p.inArray then .error .malformed else .ok (p.close wanted)
  | .separator, _ => .error .malformed

/-- Reads tokens up to the end of the value: the value and the tokens after it. -/
def run (p : Partial) (wanted : Option (List String)) :
    List Token → Except Fault (Json × List Token)
  | [] => .error .truncated
  | token :: tokens =>
    match p.step wanted token with
    | .error fault => .error fault
    | .ok (.done value) => .ok (value, tokens)
    | .ok (.open next) => next.run wanted tokens

end Partial

/-- Reads a value at the start of a text: the value and the tokens after it. Of an object only the
wanted members are kept, if some are named. -/
def readStart (wanted : Option (List String)) (text : String) : Except Fault (Json × List Token) :=
  Partial.run ⟨[], .value⟩ wanted (Token.scan text.toList)

/-- Reads a text that holds one value and nothing else. -/
def readWanted (wanted : Option (List String)) (text : String) : Except Fault Json :=
  match readStart wanted text with
  | .error fault => .error fault
  | .ok (value, []) => .ok value
  | .ok (_, _ :: _) => .error .malformed

/-- Reads a text that holds one value, with all members of objects. -/
def read (text : String) : Except Fault Json :=
  readWanted none text

end Json

end Lineage
