import Lineage.Text.Ranges

/-!
# Blank text

The characters with the Unicode property `White_Space`, and the two operations built on them:
`trim` takes blanks off both ends of a text, `isBlankText` holds of a text with nothing else in it.
-/

namespace Lineage

/-- The ranges of code points with the property `White_Space`, both ends included. -/
def blankRanges : List (Nat × Nat) :=
  [(0x9, 0xD), (0x20, 0x20), (0x85, 0x85), (0xA0, 0xA0), (0x1680, 0x1680), (0x2000, 0x200A),
    (0x2028, 0x2029), (0x202F, 0x202F), (0x205F, 0x205F), (0x3000, 0x3000)]

def isBlank (c : Char) : Bool :=
  inRanges blankRanges c

/-- Whether a text holds white space only. -/
def isBlankText (s : String) : Bool :=
  s.toList.all isBlank

/-- A list of characters without the white space at its ends. -/
def trimChars (cs : List Char) : List Char :=
  ((cs.dropWhile isBlank).reverse.dropWhile isBlank).reverse

/-- A text without the white space at its ends. -/
def trim (s : String) : String :=
  String.ofList (trimChars s.toList)

/-! ## Trimmed texts -/

/-- Dropping characters off the end of a list keeps its start. -/
theorem prefix_trimChars (cs : List Char) : trimChars cs <+: cs.dropWhile isBlank := by
  unfold trimChars
  have hsuffix := List.dropWhile_suffix (l := (cs.dropWhile isBlank).reverse) isBlank
  rw [← List.reverse_prefix, List.reverse_reverse] at hsuffix
  exact hsuffix

theorem isBlank_of_mem_head? {c : Char} {cs : List Char} (h : c ∈ (trimChars cs).head?) :
    isBlank c = false := by
  obtain ⟨rest, hrest⟩ := prefix_trimChars cs
  have hhead : (cs.dropWhile isBlank).head? = some c := by
    rw [← hrest, List.head?_append, h, Option.some_or]
  have hnot := List.head?_dropWhile_not isBlank cs
  rw [hhead] at hnot
  exact hnot

theorem isBlank_of_mem_getLast? {c : Char} {cs : List Char} (h : c ∈ (trimChars cs).getLast?) :
    isBlank c = false := by
  unfold trimChars at h
  rw [List.getLast?_reverse] at h
  have hnot := List.head?_dropWhile_not isBlank (cs.dropWhile isBlank).reverse
  rw [h] at hnot
  exact hnot

theorem trimChars_eq_self {cs : List Char} (hhead : ∀ c ∈ cs.head?, isBlank c = false)
    (hlast : ∀ c ∈ cs.getLast?, isBlank c = false) : trimChars cs = cs := by
  have hdrop : ∀ cs : List Char, (∀ c ∈ cs.head?, isBlank c = false) →
      cs.dropWhile isBlank = cs := by
    intro cs hcs
    cases cs with
    | nil => rfl
    | cons c cs => rw [List.dropWhile_cons_of_neg (by rw [hcs c rfl]; exact Bool.false_ne_true)]
  unfold trimChars
  rw [hdrop cs hhead, hdrop cs.reverse fun c hc => hlast c (by rwa [List.head?_reverse] at hc),
    List.reverse_reverse]

@[simp]
theorem trim_trim (s : String) : trim (trim s) = trim s := by
  unfold trim
  rw [String.toList_ofList,
    trimChars_eq_self (fun _ => isBlank_of_mem_head?) fun _ => isBlank_of_mem_getLast?]

theorem length_trim_le (s : String) : (trim s).length ≤ s.length := by
  have hprefix := (prefix_trimChars s.toList).length_le
  have hsuffix := (List.dropWhile_suffix (l := s.toList) isBlank).length_le
  unfold trim
  rw [String.length_ofList]
  exact Nat.le_trans hprefix (Nat.le_trans hsuffix (Nat.le_of_eq s.length_toList))

end Lineage
