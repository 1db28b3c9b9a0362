import Lineage.Json
import Lineage.Json.Number
import Lineage.Text.Bytes
import Lineage.Text.Hex

/-!
# Tokens of JSON

`scan` cuts a text into tokens. A text that goes wrong ends in a fault token, so that whoever reads
the tokens meets the fault in its place. Two tokens are well-formed and still have no value: strings
with unpaired surrogates and numbers beyond the largest double.
-/

namespace Lineage

namespace Json

/-- How a text fails to be JSON: it ends inside a value, or it goes on wrongly. -/
inductive Fault
  | truncated
  | malformed
  deriving DecidableEq, Repr

/-- A piece of JSON text. -/
inductive Token
  | openArray
  | closeArray
  | openObject
  | closeObject
  | comma
  | colon
  | string (value : String)
  /-- A number, `true`, `false` or `null`. -/
  | scalar (value : Json)
  /-- A well-formed string with an unpaired surrogate. -/
  | unpaired
  /-- A well-formed number beyond the largest double. -/
  | huge
  /-- The text goes wrong here, in a string or not. -/
  | fault (fault : Fault) (inString : Bool)
  deriving Repr

namespace Token

/-- How a broken escape of four hexadecimal digits fails: the text must have four more bytes to be
wrong rather than too short. -/
def hexFault (rest : List Char) : Fault :=
  if byteLength rest < 4 then .truncated else .malformed

def simpleEscape? : Char → Option Char
  | '"' => some '"'
  | '\\' => some '\\'
  | '/' => some '/'
  | 'b' => some '\x08'
  | 'f' => some '\x0c'
  | 'n' => some '\n'
  | 'r' => some '\r'
  | 't' => some '\t'
  | _ => none

/-- The first halves of pairs of surrogates. -/
def isHighSurrogate (unit : Nat) : Bool := 0xD800 ≤ unit && unit ≤ 0xDBFF

/-- The second halves of pairs of surrogates. -/
def isLowSurrogate (unit : Nat) : Bool := 0xDC00 ≤ unit && unit ≤ 0xDFFF

/-- The character that a pair of surrogates stands for. -/
def pairChar (high low : Nat) : Char :=
  Char.ofNat (0x10000 + (high - 0xD800) * 0x400 + (low - 0xDC00))

/-- What is known inside a string: its characters in reverse, whether every surrogate before the
last escape has its partner, and the first half of a pair if the last escape was one. -/
structure Scan where
  reversed : List Char := []
  paired : Bool := true
  high : Option Nat := none

namespace Scan

/-- Whether every surrogate has its partner, as no further one follows. -/
def complete (s : Scan) : Bool :=
  s.paired && s.high.isNone

/-- The scan after a character that is no surrogate. -/
def push (s : Scan) (c : Char) : Scan :=
  ⟨c :: s.reversed, s.complete, none⟩

/-- The scan after an escape of four hexadecimal digits. -/
def unit (s : Scan) (value : Nat) : Scan :=
  if isLowSurrogate value then
    match s.high with
    | some high => ⟨pairChar high value :: s.reversed, s.paired, none⟩
    | none => ⟨s.reversed, false, none⟩
  else if isHighSurrogate value then ⟨s.reversed, s.complete, some value⟩
  else s.push (Char.ofNat value)

/-- How a string fails that ends too early: an unpaired surrogate before is malformed, and comes
first. -/
def fault (s : Scan) (fault : Fault) : Fault :=
  if s.paired then fault else .malformed

end Scan

/-- Scans a string after its opening quote: its token and the text after it. -/
def scanString (s : Scan) : List Char → Except Fault (Token × List Char)
  | [] => .error (s.fault .truncated)
  | '"' :: rest =>
    .ok (if s.complete then .string (String.ofList s.reversed.reverse) else .unpaired, rest)
  | '\\' :: 'u' :: a :: b :: c :: d :: rest =>
    match hexValue? [a, b, c, d] with
    | none => .error .malformed
    | some value => scanString (s.unit value) rest
  | '\\' :: 'u' :: rest => .error (s.fault (hexFault rest))
  | ['\\'] => .error (s.fault .truncated)
  | '\\' :: c :: rest =>
    match simpleEscape? c with
    | none => .error .malformed
    | some value => scanString (s.push value) rest
  | c :: rest =>
    if c.toNat < 0x20 then .error .malformed else scanString (s.push c) rest
termination_by structural cs => cs

theorem length_of_scanString {s : Scan} {cs : List Char} {t : Token} {rest : List Char}
    (h : scanString s cs = .ok (t, rest)) : rest.length < cs.length := by
  fun_induction scanString s cs <;> simp_all <;> omega

def digitValue (c : Char) : Nat :=
  c.toNat - '0'.toNat

/-- The digits at the start of a text, and the text after them. -/
def spanDigits (cs : List Char) : List Char × List Char :=
  (cs.takeWhile Char.isDigit, cs.dropWhile Char.isDigit)

/-- Scans the exponent of a number after its letter: the exponent and the text after it. -/
def scanExponent (cs : List Char) : Except Fault (Int × List Char) :=
  let (sign, cs) : Int × List Char :=
    match cs with
    | '+' :: rest => (1, rest)
    | '-' :: rest => (-1, rest)
    | cs => (1, cs)
  match spanDigits cs with
  | ([], []) => .error .truncated
  | ([], _ :: _) => .error .malformed
  | (digits, rest) =>
    .ok (sign * (digits.foldl (fun n c => n * 10 + digitValue c) 0 : Nat), rest)

/-- The fraction and the exponent of a number. -/
structure Tail where
  /-- The digits after the point, if there is one. -/
  fraction : Option (List Char)
  /-- The exponent, if there is one. -/
  exponent : Option Int
  rest : List Char

/-- Scans the exponent of a number, if it has one. -/
def scanPower (fraction : Option (List Char)) (cs : List Char) : Except Fault Tail :=
  match cs with
  | 'e' :: rest | 'E' :: rest =>
    (scanExponent rest).map fun (exponent, rest) => ⟨fraction, some exponent, rest⟩
  | rest => .ok ⟨fraction, none, rest⟩

/-- Scans what may follow the digits before the point. -/
def scanTail (cs : List Char) : Except Fault Tail :=
  match cs with
  | '.' :: rest =>
    match spanDigits rest with
    | ([], []) => .error .truncated
    | ([], _ :: _) => .error .malformed
    | (digits, rest) => scanPower (some digits) rest
  | rest => scanPower none rest

/-- The token of a number. It is an integer if it has neither fraction nor exponent and fits into 64
bits; minus zero is none. -/
def ofNumber (negative : Bool) (digits : List Char) (tail : Tail) : Token :=
  let whole := digits.foldl (fun s c => s.integerDigit (digitValue c)) ({} : Scaled)
  let value := digits.foldl (fun n c => n * 10 + digitValue c) 0
  let scaled := (tail.fraction.getD []).foldl (fun s c => s.fractionDigit (digitValue c))
    whole.point
  if { scaled with exponent := scaled.exponent + tail.exponent.getD 0 }.isHuge then .huge
  else if tail.fraction.isNone && tail.exponent.isNone && !negative && value < Nat.pow 2 64 then
    .scalar (.integer value)
  else if tail.fraction.isNone && tail.exponent.isNone && negative && value ≠ 0
      && value ≤ Nat.pow 2 63 then
    .scalar (.integer (-value))
  else
    let fraction := tail.fraction.elim "" fun ds => "." ++ String.ofList ds
    let power := tail.exponent.elim "" fun e => "e" ++ toString e
    .scalar (.real ((if negative then "-" else "") ++ String.ofList digits ++ fraction ++ power))

/-- Scans a number after its sign: its token and the text after it. -/
def scanNumber (negative : Bool) (cs : List Char) : Except Fault (Token × List Char) :=
  match spanDigits cs with
  | ([], []) => .error .truncated
  | ([], _ :: _) => .error .malformed
  | (digits, rest) =>
    if digits.head? = some '0' && digits.length > 1 then .error .malformed
    else (scanTail rest).map fun tail => (ofNumber negative digits tail, tail.rest)

/-- Scans a word: the text after it, or the fault that it is cut off or misspelt. -/
def scanWord : List Char → List Char → Except Fault (List Char)
  | [], rest => .ok rest
  | _ :: _, [] => .error .truncated
  | w :: word, c :: rest => if w = c then scanWord word rest else .error .malformed

/-- The token at the start of a text that is neither empty nor begins with white space, and the
text after it. -/
def scanOne (c : Char) (rest : List Char) : Except Fault (Token × List Char) :=
  match c with
  | '[' => .ok (openArray, rest)
  | ']' => .ok (closeArray, rest)
  | '{' => .ok (openObject, rest)
  | '}' => .ok (closeObject, rest)
  | ',' => .ok (comma, rest)
  | ':' => .ok (colon, rest)
  | '"' => scanString {} rest
  | '-' => scanNumber true rest
  | 'n' => (scanWord "ull".toList rest).map fun rest => (.scalar .null, rest)
  | 't' => (scanWord "rue".toList rest).map fun rest => (.scalar (.boolean true), rest)
  | 'f' => (scanWord "alse".toList rest).map fun rest => (.scalar (.boolean false), rest)
  | c => if c.isDigit then scanNumber false (c :: rest) else .error .malformed

/-- The white space between tokens. -/
def isSpace (c : Char) : Bool :=
  c = ' ' || c = '\n' || c = '\t' || c = '\r'

/-! ## Scanning makes progress -/

theorem length_of_spanDigits (cs : List Char) :
    (spanDigits cs).1.length + (spanDigits cs).2.length = cs.length := by
  rw [spanDigits, ← List.length_append, List.takeWhile_append_dropWhile]

theorem length_of_scanExponent {cs rest : List Char} {e : Int}
    (h : scanExponent cs = .ok (e, rest)) : rest.length ≤ cs.length := by
  simp only [scanExponent] at h
  split at h
  · simp at h
  · simp at h
  · next heq =>
    have hlen := length_of_spanDigits (match cs with
      | '+' :: rest => ((1 : Int), rest)
      | '-' :: rest => (-1, rest)
      | cs => (1, cs)).2
    have hle : (match cs with
      | '+' :: rest => ((1 : Int), rest)
      | '-' :: rest => (-1, rest)
      | cs => (1, cs)).2.length ≤ cs.length := by
      split <;> simp
    simp only [heq] at hlen
    obtain ⟨-, rfl⟩ := Prod.mk.injEq .. ▸ Except.ok.injEq .. ▸ h
    omega

theorem length_of_scanPower {fraction : Option (List Char)} {cs : List Char} {tail : Tail}
    (h : scanPower fraction cs = .ok tail) : tail.rest.length ≤ cs.length := by
  have key : ∀ {c : Char} {rest : List Char} {t : Tail},
      (scanExponent rest).map (fun p => (⟨fraction, some p.1, p.2⟩ : Tail)) = .ok t →
        t.rest.length ≤ (c :: rest).length := by
    intro c rest t ht
    cases he : scanExponent rest with
    | error f => simp [he, Except.map] at ht
    | ok p =>
      have := length_of_scanExponent (he : scanExponent rest = .ok (p.1, p.2))
      simp only [he, Except.map, Except.ok.injEq] at ht
      subst ht
      simp only [List.length_cons]
      omega
  unfold scanPower at h
  split at h
  · exact key h
  · exact key h
  · simp only [Except.ok.injEq] at h
    subst h
    exact Nat.le_refl _

theorem length_of_scanTail {cs : List Char} {tail : Tail} (h : scanTail cs = .ok tail) :
    tail.rest.length ≤ cs.length := by
  unfold scanTail at h
  split at h
  · next rest =>
    split at h
    · simp at h
    · simp at h
    · next heq =>
      have hlen := length_of_spanDigits rest
      have := length_of_scanPower h
      simp only [heq] at hlen
      simp only [List.length_cons]
      omega
  · exact length_of_scanPower h

theorem length_of_scanNumber {negative : Bool} {cs rest : List Char} {t : Token}
    (h : scanNumber negative cs = .ok (t, rest)) : rest.length < cs.length := by
  unfold scanNumber at h
  split at h
  · simp at h
  · simp at h
  · next digits rest' hne hne' heq =>
    split at h
    · simp at h
    · cases htail : scanTail rest' with
      | error f => simp [htail, Except.map] at h
      | ok tail =>
        have hlen := length_of_spanDigits cs
        have hle := length_of_scanTail htail
        simp only [htail, Except.map, Except.ok.injEq, Prod.mk.injEq] at h
        simp only [heq] at hlen
        have : digits ≠ [] := by
          rintro rfl
          cases rest' <;> simp_all
        have := List.length_pos_iff.2 this
        rw [← h.2]
        omega

theorem length_of_scanWord {word cs rest : List Char} (h : scanWord word cs = .ok rest) :
    rest.length ≤ cs.length := by
  induction word generalizing cs with
  | nil => simp_all [scanWord]
  | cons w word ih =>
    cases cs with
    | nil => simp [scanWord] at h
    | cons c cs =>
      rw [scanWord] at h
      split at h
      · have := ih h
        simp only [List.length_cons]
        omega
      · simp at h

theorem length_of_scanOne {c : Char} {cs rest : List Char} {t : Token}
    (h : scanOne c cs = .ok (t, rest)) : rest.length ≤ cs.length := by
  have word : ∀ {w : List Char} {v : Token},
      (scanWord w cs).map (fun r => (v, r)) = .ok (t, rest) → rest.length ≤ cs.length := by
    intro w v hw
    cases hs : scanWord w cs with
    | error f => simp [hs, Except.map] at hw
    | ok r =>
      simp only [hs, Except.map, Except.ok.injEq, Prod.mk.injEq] at hw
      exact hw.2 ▸ length_of_scanWord hs
  unfold scanOne at h
  split at h
  all_goals try (simp only [Except.ok.injEq, Prod.mk.injEq] at h; exact h.2 ▸ Nat.le_refl _)
  · exact Nat.le_of_lt (length_of_scanString h)
  · exact Nat.le_of_lt (length_of_scanNumber h)
  · exact word h
  · exact word h
  · exact word h
  · split at h
    · have := length_of_scanNumber h
      simp only [List.length_cons] at this
      omega
    · simp at h

/-- The tokens of a text, up to its first fault. -/
def scan : List Char → List Token
  | [] => []
  | c :: cs =>
    if isSpace c then scan cs
    else
      match _h : scanOne c cs with
      | .error f => [fault f (c = '"')]
      | .ok (t, rest) => t :: scan rest
termination_by cs => cs.length
decreasing_by
  · simp
  · have := length_of_scanOne _h
    simp only [List.length_cons]
    omega

end Token

end Json

end Lineage
