import Lineage.Text.Hex

/-!
# Text in TOML

Texts stand between quotes or apostrophes, one of them or three, and only quotes take escapes.
`quoted` writes a text in the plainest of these ways that fits, `readText` reads all of them, and
the lemmas say that reading leaves a shorter rest.
-/

namespace Lineage

namespace Toml

/-- Whether a character is a control character other than the tab. -/
def isControl (c : Char) : Bool :=
  (c.toNat < 0x20 && c ≠ '\t') || c = '\x7f'

/-- White space inside a line. -/
def isSpace (c : Char) : Bool :=
  c = ' ' || c = '\t'

/-- A text without the white space at its start. -/
def skipSpaces (cs : List Char) : List Char :=
  cs.dropWhile isSpace

/-- Whether a character may stand in a key without quotes. -/
def isBareChar (c : Char) : Bool :=
  c.isAlphanum || c = '_' || c = '-'

/-! ## Writing -/

/-- The four ways to write a text. -/
inductive Style
  | basic
  | literal
  | longBasic
  | longLiteral
  deriving DecidableEq, Repr

/-- The length of the longest run of a character, after so many of them. -/
def longestRun (mark : Char) (current : Nat) : List Char → Nat
  | [] => current
  | c :: cs =>
    if c = mark then longestRun mark (current + 1) cs else max current (longestRun mark 0 cs)

/-- The way to write a text: without escapes if one of the four allows that, the earlier the
better. -/
def Style.ofText (cs : List Char) : Style :=
  let plain := cs.all fun c => !isControl c || c = '\n'
  let unescaped := plain && !cs.contains '\\'
  let oneLine := !cs.contains '\n'
  if unescaped && oneLine && !cs.contains '"' then .basic
  else if plain && oneLine && !cs.contains '\'' then .literal
  else if unescaped && longestRun '"' 0 cs ≤ 2 then .longBasic
  else if plain && longestRun '\'' 0 cs ≤ 2 then .longLiteral
  else if oneLine then .basic
  else .longBasic

/-- How a character other than a quote is written between quotes. Between three of them a line may
end. -/
def escapeChar (long : Bool) (c : Char) : List Char :=
  match c with
  | '\x08' => ['\\', 'b']
  | '\t' => ['\\', 't']
  | '\n' => if long then ['\n'] else ['\\', 'n']
  | '\x0c' => ['\\', 'f']
  | '\r' => ['\\', 'r']
  | '\\' => ['\\', '\\']
  | c => if isControl c then '\\' :: 'u' :: hexDigits 'A' c.toNat else [c]

/-- A text with the escapes that it needs between quotes, after so many quotes in a row. Between
three quotes, up to two may stand by themselves. -/
def escape (long : Bool) (quotes : Nat) : List Char → List Char
  | [] => []
  | '"' :: cs =>
    if long && quotes < 2 then '"' :: escape long (quotes + 1) cs
    else '\\' :: '"' :: escape long 0 cs
  | c :: cs => escapeChar long c ++ escape long 0 cs

/-- What a text of several lines starts with. -/
def firstLineEnd (cs : List Char) : List Char :=
  if cs.contains '\n' then ['\n'] else []

/-- A text between its delimiters. -/
def Style.wrap (style : Style) (cs : List Char) : List Char :=
  match style with
  | .basic => ['"'] ++ escape false 0 cs ++ ['"']
  | .literal => ['\''] ++ cs ++ ['\'']
  | .longBasic => ['"', '"', '"'] ++ firstLineEnd cs ++ escape true 0 cs ++ ['"', '"', '"']
  | .longLiteral => ['\'', '\'', '\''] ++ firstLineEnd cs ++ cs ++ ['\'', '\'', '\'']

def quoted (cs : List Char) : List Char :=
  (Style.ofText cs).wrap cs

/-- The way to write a key that needs delimiters. Keys stand on one line. -/
def Style.ofKey (cs : List Char) : Style :=
  match Style.ofText cs with
  | .literal => .literal
  | _ => .basic

def quotedKey (cs : List Char) : List Char :=
  if !cs.isEmpty && cs.all isBareChar then cs else (Style.ofKey cs).wrap cs

/-! ## Reading -/

/-- The character of so many hexadecimal digits. -/
def unicode? (count : Nat) (cs : List Char) : Option (Char × List Char) := do
  guard (count ≤ cs.length)
  let value ← hexValue? (cs.take count)
  guard value.isValidChar
  return (Char.ofNat value, cs.drop count)

/-- Reads an escape after its backslash. -/
def escape? : List Char → Option (Char × List Char)
  | 'b' :: rest => some ('\x08', rest)
  | 't' :: rest => some ('\t', rest)
  | 'n' :: rest => some ('\n', rest)
  | 'f' :: rest => some ('\x0c', rest)
  | 'r' :: rest => some ('\r', rest)
  | '"' :: rest => some ('"', rest)
  | '\\' :: rest => some ('\\', rest)
  | 'u' :: rest => unicode? 4 rest
  | 'U' :: rest => unicode? 8 rest
  | _ => none

theorem length_of_unicode? {count : Nat} {cs rest : List Char} {c : Char}
    (h : unicode? count cs = some (c, rest)) : rest.length ≤ cs.length := by
  unfold unicode? at h
  obtain ⟨-, -, h⟩ := Option.bind_eq_some_iff.1 h
  obtain ⟨value, -, h⟩ := Option.bind_eq_some_iff.1 h
  obtain ⟨-, -, h⟩ := Option.bind_eq_some_iff.1 h
  obtain ⟨-, rfl⟩ := Prod.mk.inj (Option.some.inj h)
  exact List.length_drop .. ▸ Nat.sub_le ..

theorem length_of_escape? {cs rest : List Char} {c : Char} (h : escape? cs = some (c, rest)) :
    rest.length < cs.length := by
  have key : ∀ {d e : Char} {after : List Char}, some (d, after) = some (c, rest) →
      rest.length < (e :: after).length := by
    intro d e after he
    rw [(Prod.mk.inj (Option.some.inj he)).2]
    exact Nat.lt_succ_self _
  unfold escape? at h
  split at h
  · exact key h
  · exact key h
  · exact key h
  · exact key h
  · exact key h
  · exact key h
  · exact key h
  · exact Nat.lt_succ_of_le (length_of_unicode? h)
  · exact Nat.lt_succ_of_le (length_of_unicode? h)
  · exact absurd h (by simp)

/-- Puts a character in front of a text that was read. -/
def consText (c : Char) (p : List Char × List Char) : List Char × List Char :=
  (c :: p.1, p.2)

/-- Reads a text after its opening quote. -/
def readBasic (cs : List Char) : Option (List Char × List Char) :=
  match cs with
  | [] => none
  | '"' :: rest => some ([], rest)
  | '\\' :: rest =>
    match h : escape? rest with
    | none => none
    | some (c, after) =>
      have := length_of_escape? h
      (readBasic after).map (consText c)
  | c :: rest => if isControl c then none else (readBasic rest).map (consText c)
termination_by cs.length
decreasing_by all_goals simp_all only [List.length_cons]; omega

/-- Reads a text after its opening apostrophe. -/
def readLiteral : List Char → Option (List Char × List Char)
  | [] => none
  | '\'' :: rest => some ([], rest)
  | c :: rest => if isControl c then none else (readLiteral rest).map (consText c)

/-- Skips white space and line ends. -/
def skipLines : List Char → List Char
  | '\r' :: '\n' :: rest => skipLines rest
  | c :: rest => if isSpace c || c = '\n' then skipLines rest else c :: rest
  | [] => []

theorem length_skipLines_le (cs : List Char) : (skipLines cs).length ≤ cs.length := by
  fun_induction skipLines cs <;> simp_all only [List.length_cons, List.length_nil] <;> omega

def lineEnd? : List Char → Option (List Char)
  | '\n' :: rest => some rest
  | '\r' :: '\n' :: rest => some rest
  | _ => none

theorem length_of_lineEnd? {cs rest : List Char} (h : lineEnd? cs = some rest) :
    rest.length < cs.length := by
  unfold lineEnd? at h
  split at h
  · exact Option.some.inj h ▸ Nat.lt_succ_self _
  · exact Option.some.inj h ▸ Nat.lt_succ_of_lt (Nat.lt_succ_self _)
  · exact absurd h (by simp)

/-- Skips the end of a line after a backslash, with all blank space that follows. -/
def continuation? (cs : List Char) : Option (List Char) :=
  (lineEnd? (skipSpaces cs)).map skipLines

theorem length_skipSpaces_le (cs : List Char) : (skipSpaces cs).length ≤ cs.length :=
  (List.dropWhile_sublist _).length_le

theorem length_of_continuation? {cs rest : List Char} (h : continuation? cs = some rest) :
    rest.length < cs.length := by
  obtain ⟨after, hend, rfl⟩ := Option.map_eq_some_iff.1 h
  have := length_of_lineEnd? hend
  have := length_skipSpaces_le cs
  have := length_skipLines_le after
  omega

/-- The marks right after three closing ones. Up to two of them belong to the text. -/
def trailingMarks (mark : Char) (rest : List Char) : List Char × List Char :=
  let marks := (rest.take 2).takeWhile (· = mark)
  (marks, rest.drop marks.length)

/-- Reads a text after its three opening quotes. -/
def readLongBasic (cs : List Char) : Option (List Char × List Char) :=
  match cs with
  | [] => none
  | '"' :: '"' :: '"' :: rest => some (trailingMarks '"' rest)
  | '\\' :: rest =>
    match h : continuation? rest with
    | some after =>
      have := length_of_continuation? h
      readLongBasic after
    | none =>
      match h : escape? rest with
      | none => none
      | some (c, after) =>
        have := length_of_escape? h
        (readLongBasic after).map (consText c)
  | '\r' :: '\n' :: rest => (readLongBasic rest).map (consText '\n')
  | c :: rest =>
    if isControl c && c ≠ '\n' then none else (readLongBasic rest).map (consText c)
termination_by cs.length
decreasing_by all_goals simp_all only [List.length_cons]; omega

/-- Reads a text after its three opening apostrophes. -/
def readLongLiteral : List Char → Option (List Char × List Char)
  | [] => none
  | '\'' :: '\'' :: '\'' :: rest => some (trailingMarks '\'' rest)
  | '\r' :: '\n' :: rest => (readLongLiteral rest).map (consText '\n')
  | c :: rest =>
    if isControl c && c ≠ '\n' then none else (readLongLiteral rest).map (consText c)

/-- A text of several lines without the line end right after its delimiter. -/
def dropLineEnd (cs : List Char) : List Char :=
  (lineEnd? cs).getD cs

/-- Reads a text with its delimiters. -/
def readText : List Char → Option (List Char × List Char)
  | '"' :: '"' :: '"' :: rest => readLongBasic (dropLineEnd rest)
  | '"' :: rest => readBasic rest
  | '\'' :: '\'' :: '\'' :: rest => readLongLiteral (dropLineEnd rest)
  | '\'' :: rest => readLiteral rest
  | _ => none

def readKey : List Char → Option (List Char × List Char)
  | '"' :: rest => readBasic rest
  | '\'' :: rest => readLiteral rest
  | cs =>
    match cs.takeWhile isBareChar with
    | [] => none
    | key => some (key, cs.dropWhile isBareChar)

/-- How many keys may stand in a row. -/
def pathLimit : Nat := 80

/-- Reads keys with points between them. -/
def readKeys (cs : List Char) : Option (List String × List Char) := do
  let (key, rest) ← readKey (skipSpaces cs)
  match skipSpaces rest with
  | '.' :: after =>
    if after.length < cs.length then
      let (keys, rest) ← readKeys after
      return (String.ofList key :: keys, rest)
    else none
  | rest => return ([String.ofList key], rest)
termination_by cs.length

/-- Reads keys with points between them, and not too many. -/
def readPath (cs : List Char) : Option (List String × List Char) := do
  let (keys, rest) ← readKeys cs
  guard (keys.length < pathLimit)
  return (keys, rest)

end Toml

end Lineage
