import Lineage.Json.Printer
import Lineage.Json.Token
import Mathlib.Algebra.Group.Int.Defs
import Mathlib.Algebra.Group.Nat.Defs
import Mathlib.Data.List.Forall2
import Mathlib.Tactic.SplitIfs

/-!
# Tokens of written values

What the writer of JSON puts down, the scanner takes apart again: a string is scanned as itself
(`Token.scan_quote`), and so is an integer of 64 bits (`Token.scan_integer`). A value has the same
tokens on one line and on several (`Readable.scans_compact`, `Readable.scans_pretty`).
-/

namespace Lineage

theorem forall₂_map_of_mem {α β γ : Type} {same : β → γ → Prop} {f : α → β} {g : α → γ}
    {xs : List α} (h : ∀ x ∈ xs, same (f x) (g x)) : List.Forall₂ same (xs.map f) (xs.map g) := by
  rw [List.forall₂_map_left_iff, List.forall₂_map_right_iff, List.forall₂_same]
  exact h

namespace Json

namespace Token

/-! ## Strings -/

namespace Scan

theorem complete_push {s : Scan} (hs : s.complete = true) (c : Char) :
    (s.push c).complete = true := by
  unfold push complete
  simp only [Option.isNone_none, Bool.and_true]
  exact hs

theorem unit_of_lt {s : Scan} {n : Nat} (h : n < 0xD800) : s.unit n = s.push (Char.ofNat n) := by
  have hlow : isLowSurrogate n = false := by
    unfold isLowSurrogate
    simp; omega
  have hhigh : isHighSurrogate n = false := by
    unfold isHighSurrogate
    simp; omega
  unfold unit
  rw [if_neg (by simp [hlow]), if_neg (by simp [hhigh])]

end Scan

theorem scanString_unit {s : Scan} {a b c d : Char} {value : Nat}
    (h : hexValue? [a, b, c, d] = some value) (rest : List Char) :
    scanString s ('\\' :: 'u' :: a :: b :: c :: d :: rest) = scanString (s.unit value) rest := by
  rw [scanString, h]

theorem scanString_escapeChar (s : Scan) (c : Char) (rest : List Char) :
    scanString s (escapeChar c ++ rest) = scanString (s.push c) rest := by
  unfold escapeChar
  split
  -- The simple escapes compute; control characters and all others are left.
  any_goals rfl
  next hquote hslash _ _ _ _ _ =>
    split_ifs with hcontrol
    · have hvalue : hexValue? (hexDigits 'a' c.toNat) = some c.toNat :=
        hexValue?_hexDigits (Or.inl rfl) (Nat.lt_trans hcontrol (by decide))
      unfold hexDigits at hvalue ⊢
      simp only [List.map_cons, List.map_nil] at hvalue ⊢
      refine (scanString_unit hvalue rest).trans ?_
      rw [Scan.unit_of_lt (Nat.lt_trans hcontrol (by decide)), Char.ofNat_toNat]
    · rw [List.singleton_append, scanString, if_neg hcontrol]
      · exact hquote
      · exact fun _ _ _ _ _ hc _ => hslash hc
      · exact fun _ hc _ => hslash hc
      · exact fun hc _ => hslash hc
      · exact fun _ _ hc _ => hslash hc

/-- A string is read back from how it is written. -/
theorem scanString_flatMap {s : Scan} (hs : s.complete = true) (cs rest : List Char) :
    scanString s (cs.flatMap escapeChar ++ '"' :: rest) =
      .ok (.string (String.ofList (s.reversed.reverse ++ cs)), rest) := by
  induction cs generalizing s with
  | nil =>
    show Except.ok (if s.complete then _ else _, rest) = _
    rw [if_pos hs, List.append_nil]
  | cons c cs ih =>
    rw [List.flatMap_cons, List.append_assoc, scanString_escapeChar, ih (Scan.complete_push hs c)]
    simp [Scan.push]

/-! ## Numbers -/

/-- What follows a value in a written text. -/
def Ended (rest : List Char) : Prop :=
  ∀ c ∈ rest.head?, c ∈ [',', ']', '}', '\n']

theorem ended_cons {c : Char} (h : c ∈ [',', ']', '}', '\n']) (rest : List Char) :
    Ended (c :: rest) :=
  fun _ hc => Option.some.inj hc ▸ h

theorem spanDigits_append {digits rest : List Char} (hdigits : ∀ c ∈ digits, c.isDigit = true)
    (hrest : Ended rest) : spanDigits (digits ++ rest) = (digits, rest) := by
  have hnone : rest.takeWhile Char.isDigit = [] ∧ rest.dropWhile Char.isDigit = rest := by
    cases rest with
    | nil => exact ⟨rfl, rfl⟩
    | cons c rest =>
      have hc : c.isDigit = false := by
        have hc := hrest c rfl
        simp only [List.mem_cons, List.not_mem_nil, or_false] at hc
        rcases hc with rfl | rfl | rfl | rfl <;> rfl
      simp [hc]
  unfold spanDigits
  rw [List.takeWhile_append_of_pos hdigits, List.dropWhile_append_of_pos hdigits, hnone.1, hnone.2,
    List.append_nil]

theorem scanTail_of_ended {rest : List Char} (h : Ended rest) :
    scanTail rest = .ok ⟨none, none, rest⟩ := by
  cases rest with
  | nil => rfl
  | cons c rest =>
    have hc := h c rfl
    simp only [List.mem_cons, List.not_mem_nil, or_false] at hc
    rcases hc with rfl | rfl | rfl | rfl <;> rfl

/-- The number that digits stand for, after a number that others stand for. -/
def valueOf (n : Nat) (digits : List Char) : Nat :=
  digits.foldl (fun n c => n * 10 + digitValue c) n

theorem valueOf_toDigits (n : Nat) : valueOf 0 (Nat.toDigits 10 n) = n := by
  unfold valueOf digitValue
  simp only [Nat.mul_comm _ 10]
  exact Nat.ofDigitChars_ten_toDigits

theorem le_valueOf (n : Nat) (digits : List Char) : n ≤ valueOf n digits := by
  induction digits generalizing n with
  | nil => exact Nat.le_refl n
  | cons c digits ih => exact Nat.le_trans (by omega) (ih (n * 10 + digitValue c))

theorem foldl_integerDigit {s : Scaled} {digits : List Char} (hfull : s.full = false)
    (hfits : valueOf s.significand digits < 2 ^ 64) :
    digits.foldl (fun s c => s.integerDigit (digitValue c)) s =
      { s with significand := valueOf s.significand digits } := by
  induction digits generalizing s with
  | nil => rfl
  | cons c digits ih =>
    -- Fewer digits stand for no larger number, so that there is room for this one too.
    have hroom : s.hasRoom (digitValue c) = true := by
      unfold Scaled.hasRoom
      rw [hfull]
      exact decide_eq_true (Nat.lt_of_le_of_lt (le_valueOf _ digits) hfits)
    rw [List.foldl_cons, Scaled.integerDigit, if_pos hroom]
    exact ih hfull hfits

theorem roundDouble_le (n : Nat) : Scaled.roundDouble n ≤ 2 * n + 1 := by
  have hunit : Nat.pow 2 (n.log2 - 52) ≤ n + 1 := by
    rcases Nat.eq_zero_or_pos n with rfl | hpos
    · decide
    · calc 2 ^ (n.log2 - 52) ≤ 2 ^ n.log2 := Nat.pow_le_pow_right (by decide) (Nat.sub_le _ _)
        _ ≤ n + 1 := Nat.le_succ_of_le (Nat.log2_self_le (Nat.ne_of_gt hpos))
  unfold Scaled.roundDouble
  simp only []
  have hdiv := Nat.div_mul_le_self n (Nat.pow 2 (n.log2 - 52))
  split_ifs
  · rw [Nat.add_mul]
    omega
  · omega

theorem isHuge_of_lt {n : Nat} (h : n < 2 ^ 64) :
    ({ significand := n } : Scaled).isHuge = false := by
  have hround := roundDouble_le n
  have hone : Scaled.roundDouble (Nat.pow 10 (0 : Int).toNat) = 1 := by decide
  -- Rounding at most doubles, far below the largest double.
  have hlarge : 2 ^ 66 ≤ Nat.pow 2 1024 - Nat.pow 2 970 := by decide +kernel
  have hlt : ¬ Nat.pow 2 1024 - Nat.pow 2 970 ≤ Scaled.roundDouble n * 1 :=
    Nat.not_le.2 (Nat.lt_of_lt_of_le (by omega) hlarge)
  unfold Scaled.isHuge
  simp only [hone, ge_iff_le, decide_eq_false hlt]
  simp

/-- Digits are read back as an integer if it has 64 bits. -/
theorem ofNumber_toDigits {negative : Bool} {n : Nat} (rest : List Char) (hlt : n < 2 ^ 64)
    (hnegative : negative = true → n ≠ 0 ∧ n ≤ 2 ^ 63) :
    ofNumber negative (Nat.toDigits 10 n) ⟨none, none, rest⟩ =
      .scalar (.integer (if negative then -n else n)) := by
  have hvalue := valueOf_toDigits n
  have hfold : (Nat.toDigits 10 n).foldl
      (fun (s : Scaled) c => s.integerDigit (digitValue c)) {} = _ :=
    foldl_integerDigit rfl (Nat.lt_of_le_of_lt (Nat.le_of_eq hvalue) hlt)
  have hhuge := isHuge_of_lt hlt
  unfold ofNumber
  simp only [hfold]
  unfold valueOf at hvalue ⊢
  simp only [hvalue, Scaled.point, Option.getD_none, List.foldl_nil, Int.add_zero, hhuge]
  cases negative with
  | false =>
    rw [if_neg Bool.false_ne_true, if_pos (by simpa using hlt)]
    rfl
  | true =>
    obtain ⟨hpos, hle⟩ := hnegative rfl
    rw [if_neg Bool.false_ne_true, if_neg (by simp), if_pos (by simpa using ⟨hpos, hle⟩)]
    rfl

theorem head?_toDigits {n : Nat} (h : 0 < n) : (Nat.toDigits 10 n).head? ≠ some '0' := by
  induction n using Nat.strongRecOn with
  | ind n ih =>
    rcases Nat.lt_or_ge n 10 with hlt | hge
    · rw [Nat.toDigits_of_lt_base hlt]
      have hdigit : ∀ d < 10, 0 < d → [d.digitChar].head? ≠ some '0' := by decide
      exact hdigit n hlt h
    · rw [Nat.toDigits_of_base_le (by decide) hge,
        List.head?_append_of_ne_nil _ Nat.toDigits_ne_nil]
      exact ih (n / 10) (Nat.div_lt_self h (by decide)) (Nat.div_pos hge (by decide))

theorem scanNumber_toDigits (negative : Bool) {n : Nat} {rest : List Char} (hrest : Ended rest)
    (hlt : n < 2 ^ 64) (hnegative : negative = true → n ≠ 0 ∧ n ≤ 2 ^ 63) :
    scanNumber negative (Nat.toDigits 10 n ++ rest) =
      .ok (.scalar (.integer (if negative then -n else n)), rest) := by
  have hdigits : ∀ c ∈ Nat.toDigits 10 n, c.isDigit = true := fun c =>
    Nat.isDigit_of_mem_toDigits (by decide) (by decide)
  have hzero :
      ((Nat.toDigits 10 n).head? = some '0' && (Nat.toDigits 10 n).length > 1) = false := by
    rcases Nat.eq_zero_or_pos n with rfl | hpos
    · rfl
    · rw [decide_eq_false (head?_toDigits hpos), Bool.false_and]
  unfold scanNumber
  rw [spanDigits_append hdigits hrest]
  split
  · next heq => exact absurd (congrArg Prod.fst heq) Nat.toDigits_ne_nil
  · next heq => exact absurd (congrArg Prod.fst heq) Nat.toDigits_ne_nil
  · next digits rest' _ _ heq =>
    obtain ⟨rfl, rfl⟩ := Prod.mk.inj heq
    rw [if_neg (by rw [hzero]; exact Bool.false_ne_true), scanTail_of_ended hrest]
    exact congrArg (fun t => Except.ok (t, rest)) (ofNumber_toDigits rest hlt hnegative)

theorem scanOne_of_isDigit {c : Char} (h : c.isDigit = true) (rest : List Char) :
    scanOne c rest = scanNumber false (c :: rest) := by
  unfold scanOne
  split
  all_goals first | exact absurd h (by decide) | exact if_pos h

theorem isSpace_of_isDigit {c : Char} (h : c.isDigit = true) : isSpace c = false := by
  unfold isSpace
  simp only [Bool.or_eq_false_iff, decide_eq_false_iff_not]
  refine ⟨⟨⟨?_, ?_⟩, ?_⟩, ?_⟩ <;> rintro rfl <;> exact absurd h (by decide)

/-! ## Scanning -/

theorem scan_cons {c : Char} {cs rest : List Char} {t : Token} (hspace : isSpace c = false)
    (h : scanOne c cs = .ok (t, rest)) : scan (c :: cs) = t :: scan rest := by
  rw [scan, if_neg (by rw [hspace]; exact Bool.false_ne_true)]
  split
  · next heq =>
    rw [heq] at h
    cases h
  · next heq =>
    obtain ⟨rfl, rfl⟩ := Prod.mk.inj (Except.ok.inj (heq.symm.trans h))
    rfl

theorem scan_spaces {spaces : List Char} (h : ∀ c ∈ spaces, isSpace c = true) (rest : List Char) :
    scan (spaces ++ rest) = scan rest := by
  induction spaces with
  | nil => rfl
  | cons c spaces ih =>
    rw [List.cons_append, scan, if_pos (h c List.mem_cons_self)]
    exact ih fun d hd => h d (List.mem_cons_of_mem c hd)

theorem scan_quote (value : String) (rest : List Char) :
    scan ((quote value).toList ++ rest) = .string value :: scan rest := by
  have hquote : (quote value).toList ++ rest =
      '"' :: (value.toList.flatMap escapeChar ++ '"' :: rest) := by
    unfold quote
    rw [String.toList_ofList]
    simp
  rw [hquote]
  refine scan_cons rfl ?_
  show scanString {} _ = _
  rw [scanString_flatMap rfl]
  simp

theorem scan_integer {value : Int} {rest : List Char} (hrest : Ended rest)
    (hlow : -2 ^ 63 ≤ value) (hhigh : value < 2 ^ 64) :
    scan ((toString value).toList ++ rest) = .scalar (.integer value) :: scan rest := by
  rw [Int.toString_eq_repr, Int.repr_eq_if]
  split_ifs with hsign
  · have hscan := scanNumber_toDigits false hrest (show value.toNat < 2 ^ 64 by omega)
      fun h => nomatch h
    rw [Nat.repr_eq_ofList_toDigits, String.toList_ofList]
    have hdigit : ∀ c ∈ Nat.toDigits 10 value.toNat, c.isDigit = true := fun c =>
      Nat.isDigit_of_mem_toDigits (by decide) (by decide)
    cases hdigits : Nat.toDigits 10 value.toNat with
    | nil => exact absurd hdigits Nat.toDigits_ne_nil
    | cons c digits =>
      rw [hdigits] at hscan hdigit
      have hc := hdigit c List.mem_cons_self
      rw [List.cons_append]
      refine scan_cons (isSpace_of_isDigit hc) ((scanOne_of_isDigit hc _).trans (hscan.trans ?_))
      simp [Int.toNat_of_nonneg hsign]
  · have hscan := scanNumber_toDigits true hrest (show (-value).toNat < 2 ^ 64 by omega)
      fun _ => by omega
    rw [Nat.repr_eq_ofList_toDigits, String.toList_append, show "-".toList = ['-'] from rfl,
      String.toList_ofList, List.singleton_append, List.cons_append]
    refine scan_cons rfl (hscan.trans ?_)
    simp [Int.toNat_of_nonneg (show 0 ≤ -value by omega)]

/-- A text that has these tokens wherever it is followed by the end of a line, an array or an
object, or by a comma. -/
def Scans (text : List Char) (tokens : List Token) : Prop :=
  ∀ rest, Ended rest → scan (text ++ rest) = tokens ++ scan rest

namespace Scans

variable {text : List Char} {tokens : List Token}

theorem of_scanOne {c : Char} {cs : List Char} {t : Token} (hspace : isSpace c = false)
    (h : ∀ rest, scanOne c (cs ++ rest) = .ok (t, rest)) : Scans (c :: cs) [t] :=
  fun rest _ => scan_cons hspace (h rest)

theorem spaces_append (h : Scans text tokens) {spaces : List Char}
    (hspaces : ∀ c ∈ spaces, isSpace c = true) : Scans (spaces ++ text) tokens := by
  intro rest hrest
  rw [List.append_assoc, scan_spaces hspaces, h rest hrest]

theorem append_spaces (h : Scans text tokens) {spaces : List Char}
    (hspaces : ∀ c ∈ spaces, isSpace c = true) : Scans (text ++ '\n' :: spaces) tokens := by
  intro rest hrest
  rw [List.append_assoc, List.cons_append, h _ (ended_cons (by decide) _), ← List.cons_append,
    scan_spaces (List.forall_mem_cons.2 ⟨rfl, hspaces⟩)]

theorem intercalate {texts : List (List Char)} {tokens : List (List Token)}
    (h : List.Forall₂ Scans texts tokens) {spaces : List Char}
    (hspaces : ∀ c ∈ spaces, isSpace c = true) :
    Scans ((',' :: spaces).intercalate texts) ([comma].intercalate tokens) := by
  induction h with
  | nil => exact fun rest _ => rfl
  | cons hfirst hrest ih =>
    cases hrest with
    | nil => simpa using hfirst
    | cons hsecond hrest =>
      intro rest hends
      rw [List.intercalate_cons_cons, List.intercalate_cons_cons, List.append_assoc,
        List.append_assoc, List.append_assoc, List.append_assoc, List.cons_append,
        hfirst _ (ended_cons (by decide) _), scan_cons (t := comma) rfl rfl, scan_spaces hspaces,
        ih rest hends]
      rfl

theorem enclose (h : Scans text tokens) {start stop : Char} {first last : Token}
    (hstart : ∀ rest, scan (start :: rest) = first :: scan rest)
    (hstop : ∀ rest, scan (stop :: rest) = last :: scan rest)
    (hended : stop ∈ [',', ']', '}', '\n']) :
    Scans (start :: (text ++ [stop])) (first :: (tokens ++ [last])) := by
  intro rest _
  rw [List.cons_append, hstart, List.append_assoc, List.singleton_append,
    h _ (ended_cons hended rest), hstop, List.cons_append, List.append_assoc]
  rfl

theorem array (h : Scans text tokens) :
    Scans ('[' :: (text ++ [']'])) (openArray :: (tokens ++ [closeArray])) :=
  h.enclose (fun _ => scan_cons rfl rfl) (fun _ => scan_cons rfl rfl) (by decide)

theorem object (h : Scans text tokens) :
    Scans ('{' :: (text ++ ['}'])) (openObject :: (tokens ++ [closeObject])) :=
  h.enclose (fun _ => scan_cons rfl rfl) (fun _ => scan_cons rfl rfl) (by decide)

/-- A member of an object, with or without white space after its colon. -/
theorem member (h : Scans text tokens) (key : String) {spaces : List Char}
    (hspaces : ∀ c ∈ spaces, isSpace c = true) :
    Scans ((quote key).toList ++ ':' :: (spaces ++ text)) (.string key :: colon :: tokens) := by
  intro rest hrest
  rw [List.append_assoc, scan_quote, List.cons_append, scan_cons rfl rfl,
    h.spaces_append hspaces rest hrest]
  rfl

end Scans

end Token

/-- What a text can hold exactly, with so many arrays and objects inside each other: a number that
is no integer of 64 bits may be written in several ways. -/
inductive Readable : Nat → Json → Prop
  | null {room : Nat} : Readable room null
  | boolean {room : Nat} {value : Bool} : Readable room (boolean value)
  | integer {room : Nat} {value : Int} (low : -2 ^ 63 ≤ value) (high : value < 2 ^ 64) :
    Readable room (integer value)
  | string {room : Nat} {value : String} : Readable room (string value)
  | array {room : Nat} {items : List Json} (items_readable : ∀ item ∈ items, Readable room item) :
    Readable (room + 1) (array items)
  | object {room : Nat} {members : List (String × Json)}
    (members_readable : ∀ member ∈ members, Readable room member.2) :
    Readable (room + 1) (object members)

mutual

def tokens : Json → List Token
  | string value => [.string value]
  | array items => .openArray :: ([.comma].intercalate (itemTokens items) ++ [.closeArray])
  | object members =>
    .openObject :: ([.comma].intercalate (memberTokens members) ++ [.closeObject])
  | value => [.scalar value]

def itemTokens : List Json → List (List Token)
  | [] => []
  | item :: items => tokens item :: itemTokens items

def memberTokens : List (String × Json) → List (List Token)
  | [] => []
  | (key, value) :: members => (.string key :: .colon :: tokens value) :: memberTokens members

end

theorem itemTokens_eq (items : List Json) : itemTokens items = items.map tokens := by
  induction items with
  | nil => rfl
  | cons item items ih => rw [itemTokens, ih, List.map_cons]

theorem memberTokens_eq (members : List (String × Json)) : memberTokens members =
    members.map fun member => .string member.1 :: .colon :: member.2.tokens := by
  induction members with
  | nil => rfl
  | cons member members ih => rw [memberTokens, ih, List.map_cons]

theorem compactItems_eq (items : List Json) : compactItems items = items.map compact := by
  induction items with
  | nil => rfl
  | cons item items ih => rw [compactItems, ih, List.map_cons]

theorem compactMembers_eq (members : List (String × Json)) : compactMembers members =
    members.map fun member => quote member.1 ++ ":" ++ member.2.compact := by
  induction members with
  | nil => rfl
  | cons member members ih => rw [compactMembers, ih, List.map_cons]

theorem prettyItems_eq (indent : String) (items : List Json) :
    prettyItems indent items = items.map (prettyAt indent) := by
  induction items with
  | nil => rfl
  | cons item items ih => rw [prettyItems, ih, List.map_cons]

theorem prettyMembers_eq (indent : String) (members : List (String × Json)) :
    prettyMembers indent members =
      members.map fun member => quote member.1 ++ ": " ++ prettyAt indent member.2 := by
  induction members with
  | nil => rfl
  | cons member members ih => rw [prettyMembers, ih, List.map_cons]

namespace Readable

variable {room : Nat} {v : Json}

theorem scans_compact (h : v.Readable room) : Token.Scans v.compact.toList v.tokens := by
  induction h with
  | null => exact .of_scanOne rfl fun _ => rfl
  | @boolean _ value => cases value <;> exact .of_scanOne rfl fun _ => rfl
  | integer low high => exact fun rest hrest => Token.scan_integer hrest low high
  | @string _ value => exact fun rest _ => Token.scan_quote value rest
  | @array _ items _ ih =>
    have hitems : List.Forall₂ Token.Scans (items.map fun v => v.compact.toList)
        (items.map tokens) := forall₂_map_of_mem ih
    have htext : (Json.array items).compact.toList =
        '[' :: ([','].intercalate (items.map fun v => v.compact.toList) ++ [']']) := by
      simp [compact, compactItems_eq, Function.comp_def]
    rw [htext, tokens, itemTokens_eq]
    exact (Token.Scans.intercalate hitems (List.forall_mem_nil _)).array
  | @object _ members _ ih =>
    have hmembers : List.Forall₂ Token.Scans
        (members.map fun member =>
          (quote member.1).toList ++ ':' :: ([] ++ member.2.compact.toList))
        (members.map fun member => .string member.1 :: .colon :: member.2.tokens) :=
      forall₂_map_of_mem fun member hmember =>
        (ih member hmember).member member.1 (List.forall_mem_nil _)
    have htext : (Json.object members).compact.toList =
        '{' :: ([','].intercalate (members.map fun member =>
          (quote member.1).toList ++ ':' :: ([] ++ member.2.compact.toList)) ++ ['}']) := by
      simp [compact, compactMembers_eq, Function.comp_def]
    rw [htext, tokens, memberTokens_eq]
    exact (Token.Scans.intercalate hmembers (List.forall_mem_nil _)).object

/-- The text between two brackets has the tokens of its lines with commas between them. -/
theorem exists_bracket (start stop : String) {indent : String}
    (hindent : ∀ c ∈ indent.toList, c = ' ')
    {lines : List String} {tokens : List (List Token)}
    (h : List.Forall₂ (fun line => Token.Scans line.toList) lines tokens) :
    ∃ text, (bracket indent start stop lines).toList =
        start.toList ++ (text ++ stop.toList) ∧
      Token.Scans text ([.comma].intercalate tokens) := by
  have hspaces : ∀ c ∈ indent.toList, Token.isSpace c = true := fun c hc => by
    rw [hindent c hc]
    rfl
  have hlines : List.Forall₂ Token.Scans
      (lines.map fun line => (indent.toList ++ [' ', ' ']) ++ line.toList) tokens := by
    rw [List.forall₂_map_left_iff]
    refine h.imp fun line t hline => hline.spaces_append ?_
    exact List.forall_mem_append.2 ⟨hspaces, by simp [Token.isSpace]⟩
  have hnewline : ∀ c ∈ ['\n'], Token.isSpace c = true := List.forall_mem_singleton.2 rfl
  have hbody := Token.Scans.intercalate hlines hnewline
  have htext : (",\n".intercalate (lines.map fun line => indent ++ "  " ++ line)).toList =
      [',', '\n'].intercalate
        (lines.map fun line => (indent.toList ++ [' ', ' ']) ++ line.toList) := by
    rw [String.toList_intercalate, List.map_map]
    simp only [Function.comp_def, String.toList_append]
    rfl
  unfold bracket
  by_cases hempty : lines.isEmpty
  · rw [if_pos hempty]
    rw [List.isEmpty_iff.1 hempty] at hbody
    exact ⟨[], String.toList_append, hbody⟩
  · rw [if_neg hempty]
    refine ⟨_, ?_, (hbody.append_spaces hspaces).spaces_append hnewline⟩
    simp only [String.toList_append, htext, List.append_assoc]
    rfl

/-- The tokens of a value on several lines are the same. -/
theorem scans_pretty (h : v.Readable room) :
    ∀ indent : String, (∀ c ∈ indent.toList, c = ' ') →
      Token.Scans (prettyAt indent v).toList v.tokens := by
  induction h with
  | null => exact fun _ _ => (Readable.null : Readable 0 _).scans_compact
  | boolean => exact fun _ _ => (Readable.boolean : Readable 0 _).scans_compact
  | integer low high => exact fun _ _ => (Readable.integer low high : Readable 0 _).scans_compact
  | string => exact fun _ _ => (Readable.string : Readable 0 _).scans_compact
  | @array _ items _ ih =>
    intro indent hindent
    have hdeeper : ∀ c ∈ (indent ++ "  ").toList, c = ' ' := by
      simpa [or_imp, forall_and] using hindent
    have hitems : List.Forall₂ (fun line => Token.Scans line.toList)
        (prettyItems (indent ++ "  ") items) (itemTokens items) := by
      rw [prettyItems_eq, itemTokens_eq]
      exact forall₂_map_of_mem fun item hitem => ih item hitem _ hdeeper
    obtain ⟨text, htext, hscans⟩ := exists_bracket "[" "]" hindent hitems
    rw [prettyAt, htext]
    exact hscans.array
  | @object _ members _ ih =>
    intro indent hindent
    have hdeeper : ∀ c ∈ (indent ++ "  ").toList, c = ' ' := by
      simpa [or_imp, forall_and] using hindent
    have hmembers : List.Forall₂ (fun line => Token.Scans line.toList)
        (prettyMembers (indent ++ "  ") members) (memberTokens members) := by
      rw [prettyMembers_eq, memberTokens_eq]
      refine forall₂_map_of_mem fun member hmember => ?_
      have hspace : ∀ c ∈ [' '], Token.isSpace c = true := List.forall_mem_singleton.2 rfl
      simpa using (ih member hmember _ hdeeper).member member.1 hspace
    obtain ⟨text, htext, hscans⟩ := exists_bracket "\x7b" "\x7d" hindent hmembers
    rw [prettyAt, htext]
    exact hscans.object

end Readable

end Json

end Lineage
