import Lineage.Proofs.JsonTokens
import Lineage.Proofs.TomlText
import Lineage.Toml.Printer

/-!
# Documents of TOML

A value is read back from one line (`Readable.reads_inlineText`), and as the value of a pair also
from several (`Readable.reads_valueText`); from there a statement (`readStatement_text`) and a row
of statements (`readStatements_documentText`).
-/

namespace Lineage

namespace Toml

/-- What follows a value in a written document. -/
def Ended (rest : List Char) : Prop :=
  ∀ c ∈ rest.head?, c ∈ [',', ']', '\n']

theorem ended_cons {c : Char} (h : c ∈ [',', ']', '\n']) (rest : List Char) : Ended (c :: rest) :=
  fun _ hc => Option.some.inj hc ▸ h

/-- A text is no blank, no comment, and does not end what it stands in. -/
def Starts (text : List Char) : Prop :=
  ∃ c ∈ text.head?, c ∉ [' ', '\t', '\n', '\r', '#', ']', '\uFEFF']

theorem starts_cons {c : Char} (h : c ∉ [' ', '\t', '\n', '\r', '#', ']', '\uFEFF'])
    (cs : List Char) : Starts (c :: cs) :=
  ⟨c, rfl, h⟩

theorem Starts.append {text : List Char} (h : Starts text) (rest : List Char) :
    Starts (text ++ rest) := by
  obtain ⟨c, hc, hnot⟩ := h
  refine ⟨c, ?_, hnot⟩
  rw [List.head?_append, Option.mem_def.1 hc]
  rfl

theorem Starts.exists_cons {text : List Char} (h : Starts text) :
    ∃ c cs, text = c :: cs ∧ c ∉ [' ', '\t', '\n', '\r', '#', ']', '\uFEFF'] := by
  obtain ⟨c, hc, hnot⟩ := h
  cases text with
  | nil => exact nomatch hc
  | cons d cs => exact ⟨d, cs, rfl, Option.some.inj hc ▸ hnot⟩

/-! ## Layout -/

theorem Starts.skipSpaces {text : List Char} (h : Starts text) : skipSpaces text = text := by
  obtain ⟨c, cs, rfl, hnot⟩ := h.exists_cons
  simp only [List.mem_cons, not_or] at hnot
  exact List.dropWhile_cons_of_neg (by simp [isSpace, hnot])

theorem skipLayout_cons {c : Char} (h : c ∉ [' ', '\t', '\n', '\r', '#']) (cs : List Char) :
    skipLayout (c :: cs) = c :: cs := by
  simp only [List.mem_cons, List.not_mem_nil, or_false, not_or] at h
  obtain ⟨hspace, htab, hline, hreturn, hcomment⟩ := h
  rw [skipLayout]
  · simp [isSpace, hspace, htab, hline]
  · exact fun _ hc _ => hreturn hc
  · exact fun hc => hcomment hc

theorem Starts.skipLayout {text : List Char} (h : Starts text) : skipLayout text = text := by
  obtain ⟨c, cs, rfl, hnot⟩ := h.exists_cons
  exact skipLayout_cons (fun hmem => hnot (List.mem_append_left [']', '\uFEFF'] hmem)) cs

theorem skipLayout_append {blanks : List Char} (h : ∀ c ∈ blanks, c = ' ' ∨ c = '\n')
    (rest : List Char) : skipLayout (blanks ++ rest) = skipLayout rest := by
  induction blanks with
  | nil => rfl
  | cons c blanks ih =>
    obtain ⟨hc, hblanks⟩ := List.forall_mem_cons.1 h
    rw [List.cons_append]
    rcases hc with rfl | rfl
    · rw [skipLayout]
      · simp [isSpace, ih hblanks]
      · exact nofun
      · exact nofun
    · rw [skipLayout]
      · simp [ih hblanks]
      · exact nofun
      · exact nofun

/-! ## Words -/

theorem laterDigits?_of_forall {digits : List Char} (h : ∀ c ∈ digits, c.isDigit = true) :
    laterDigits? Char.isDigit digits = some digits := by
  induction digits with
  | nil => rfl
  | cons c digits ih =>
    obtain ⟨hc, hdigits⟩ := List.forall_mem_cons.1 h
    rw [laterDigits?, if_pos hc, ih hdigits]
    · rfl
    · rintro d rest rfl -
      exact nomatch hc

theorem plainDigits?_toDigits (n : Nat) :
    plainDigits? (Nat.toDigits 10 n) = some (Nat.toDigits 10 n) := by
  have hdigits : ∀ c ∈ Nat.toDigits 10 n, c.isDigit = true := fun c =>
    Nat.isDigit_of_mem_toDigits (by decide) (by decide)
  have hall : digits? Char.isDigit (Nat.toDigits 10 n) = some (Nat.toDigits 10 n) := by
    cases heq : Nat.toDigits 10 n with
    | nil => exact absurd heq Nat.toDigits_ne_nil
    | cons c digits =>
      rw [heq] at hdigits
      obtain ⟨hc, hdigits⟩ := List.forall_mem_cons.1 hdigits
      rw [digits?, if_pos hc, laterDigits?_of_forall hdigits]
      rfl
  unfold plainDigits?
  rw [hall]
  split
  · next c digits heq =>
    -- only the number zero starts with the digit zero
    rcases Nat.eq_zero_or_pos n with rfl | hpos
    · exact absurd (congrArg List.length (Option.some.inj heq)) (Nat.ne_of_lt (by simp))
    · exact absurd (congrArg List.head? (Option.some.inj heq)) (Json.Token.head?_toDigits hpos)
  · rfl

theorem hexDigit?_of_isDigit {c : Char} (h : c.isDigit = true) :
    hexDigit? c = some (c.toNat - '0'.toNat) := by
  rw [Char.isDigit, Bool.and_eq_true, decide_eq_true_eq, decide_eq_true_eq] at h
  exact if_pos h

theorem valueOf_toDigits (n : Nat) : valueOf 10 (Nat.toDigits 10 n) = n := by
  have hfold : valueOf 10 (Nat.toDigits 10 n) = Nat.ofDigitChars 10 (Nat.toDigits 10 n) 0 := by
    refine List.foldl_ext _ _ _ fun m c hc => ?_
    rw [hexDigit?_of_isDigit (Nat.isDigit_of_mem_toDigits (by decide) (by decide) hc),
      Option.getD_some, Nat.mul_comm]
  rw [hfold]
  exact Nat.ofDigitChars_ten_toDigits

/-- An integer as it is written: its digits, after a minus sign if it is negative. -/
theorem toList_toString (value : Int) :
    (toString value).toList = (if value < 0 then ['-'] else []) ++
      Nat.toDigits 10 value.natAbs := by
  rw [Int.toString_eq_repr, Int.repr_eq_if]
  split_ifs with hsign hneg hneg
  · omega
  · rw [Nat.repr_eq_ofList_toDigits, String.toList_ofList, List.nil_append]
    exact congrArg (Nat.toDigits 10) (by omega)
  · rw [Nat.repr_eq_ofList_toDigits, String.toList_append, show "-".toList = ['-'] from rfl,
      String.toList_ofList, show (-value).toNat = value.natAbs by omega]
  · omega

theorem integer?_toString {value : Int} (hlow : -2 ^ 63 ≤ value) (hhigh : value < 2 ^ 63) :
    integer? (toString value).toList = some value := by
  have hdigit : ∀ c ∈ Nat.toDigits 10 value.natAbs, c.isDigit = true := fun c =>
    Nat.isDigit_of_mem_toDigits (by decide) (by decide)
  have hplain := plainDigits?_toDigits value.natAbs
  have hvalue := valueOf_toDigits value.natAbs
  rw [toList_toString]
  split_ifs with hsign
  · show (plainDigits? (Nat.toDigits 10 value.natAbs)).bind
      (fun ds => bounded? true (valueOf 10 ds)) = _
    rw [hplain, Option.bind_some, hvalue, bounded?, if_pos rfl, if_pos]
    · exact congrArg some (by omega)
    · show value.natAbs ≤ 2 ^ 63
      omega
  · rw [List.nil_append]
    unfold integer?
    split
    · next heq => exact absurd (hdigit 'x' (by rw [heq]; simp)) (by decide)
    · next heq => exact absurd (hdigit 'o' (by rw [heq]; simp)) (by decide)
    · next heq => exact absurd (hdigit 'b' (by rw [heq]; simp)) (by decide)
    · have hword : splitSign (Nat.toDigits 10 value.natAbs) =
          (false, Nat.toDigits 10 value.natAbs) := by
        unfold splitSign
        split
        · next heq => exact absurd (hdigit '-' (by rw [heq]; simp)) (by decide)
        · next heq => exact absurd (hdigit '+' (by rw [heq]; simp)) (by decide)
        · rfl
      rw [hword]
      simp only []
      rw [hplain, Option.bind_some, hvalue, bounded?, if_neg Bool.false_ne_true, if_pos]
      · exact congrArg some (by omega)
      · show value.natAbs < 2 ^ 63
        omega

theorem isDigit_or_of_mem_toString {value : Int} {c : Char} (hc : c ∈ (toString value).toList) :
    c.isDigit = true ∨ c = '-' := by
  rw [toList_toString, List.mem_append] at hc
  rcases hc with hc | hc
  · split_ifs at hc
    · exact .inr (List.mem_singleton.1 hc)
    · exact nomatch hc
  · exact .inl (Nat.isDigit_of_mem_toDigits (by decide) (by decide) hc)

theorem readWord_append {word rest : List Char} {value : ConfigTree}
    (hword : ∀ c ∈ word, isWordChar c = true) (hrest : Ended rest)
    (hvalue : wordValue? word = some value) : readWord (word ++ rest) = some (value, rest) := by
  have hnone : rest.takeWhile isWordChar = [] ∧ rest.dropWhile isWordChar = rest := by
    cases rest with
    | nil => exact ⟨rfl, rfl⟩
    | cons c rest =>
      have hc := hrest c rfl
      simp only [List.mem_cons, List.not_mem_nil, or_false] at hc
      rcases hc with rfl | rfl | rfl <;> exact ⟨rfl, rfl⟩
  unfold readWord
  rw [List.takeWhile_append_of_pos hword, List.dropWhile_append_of_pos hword, hnone.1, hnone.2,
    List.append_nil]
  simp only []
  split
  · next hapart =>
    split at hapart
    · exact absurd (hrest ' ' rfl) (by decide)
    · exact nomatch hapart
  · rw [hvalue]
    rfl

/-! ## Values -/

/-- What can be read back from one line, with so many lists inside each other. -/
inductive Readable : Nat → ConfigTree → Prop
  | boolean {room : Nat} {value : Bool} : Readable room (.boolean value)
  | integer {room : Nat} {value : Int} (low : -2 ^ 63 ≤ value) (high : value < 2 ^ 63) :
    Readable room (.integer value)
  | string {room : Nat} {value : String} : Readable room (.string value)
  | list {room : Nat} {items : List ConfigTree}
    (items_readable : ∀ item ∈ items, Readable room item) : Readable (room + 1) (.list items)

/-- A text that is read as a value wherever it is followed by a comma, the end of a list or the end
of a line. -/
structure Reads (read : List Char → Option (ConfigTree × List Char)) (text : List Char)
    (value : ConfigTree) : Prop where
  starts : Starts text
  reads : ∀ rest, Ended rest → read (text ++ rest) = some (value, rest)

/-- A value that is neither a text nor a list nor a table is a word. -/
theorem readValue_eq_readWord (depth : Nat) {c : Char} (h : c ∉ ['[', '\x7b', '"', '\''])
    (cs : List Char) : readValue depth (c :: cs) = readWord (c :: cs) := by
  simp only [List.mem_cons, List.not_mem_nil, or_false, not_or] at h
  obtain ⟨hlist, htable, hquote, hmark⟩ := h
  cases depth <;> rw [readValue] <;> simp [hlist, htable, hquote, hmark]

theorem not_mem_of_isAlphanum {c : Char} (h : c.isAlphanum = true ∨ c = '-') : c ∉
    [' ', '\t', '\n', '\r', '#', ']', '\uFEFF'] ++ ['[', '\x7b', '"', '\''] := by
  intro hmem
  simp only [List.cons_append, List.nil_append, List.mem_cons, List.not_mem_nil, or_false] at hmem
  rcases hmem with rfl | rfl | rfl | rfl | rfl | rfl | rfl | rfl | rfl | rfl | rfl <;>
    exact absurd h (by decide)

theorem reads_word {depth : Nat} {c : Char} {word : List Char} {value : ConfigTree}
    (hfirst : c.isAlphanum = true ∨ c = '-') (hword : ∀ d ∈ c :: word, isWordChar d = true)
    (hvalue : wordValue? (c :: word) = some value) : Reads (readValue depth) (c :: word) value where
  starts := starts_cons (fun h => not_mem_of_isAlphanum hfirst (List.mem_append_left _ h)) word
  reads rest hrest := by
    have hread := readWord_append hword hrest hvalue
    rw [List.cons_append] at hread ⊢
    rw [readValue_eq_readWord depth fun h =>
      not_mem_of_isAlphanum hfirst (List.mem_append_right _ h)]
    exact hread

theorem reads_boolean (depth : Nat) (value : Bool) :
    Reads (readValue depth) (inlineText (.boolean value)) (.boolean value) := by
  cases value with
  | false => exact reads_word (.inl rfl) (List.all_eq_true.1 rfl) rfl
  | true => exact reads_word (.inl rfl) (List.all_eq_true.1 rfl) rfl

theorem reads_integer (depth : Nat) {value : Int} (hlow : -2 ^ 63 ≤ value)
    (hhigh : value < 2 ^ 63) :
    Reads (readValue depth) (inlineText (.integer value)) (.integer value) := by
  have hinteger := integer?_toString hlow hhigh
  have hmem : ∀ c ∈ (toString value).toList, c.isDigit = true ∨ c = '-' := fun _ =>
    isDigit_or_of_mem_toString
  show Reads _ (toString value).toList _
  cases hword : (toString value).toList with
  | nil =>
    rw [toList_toString, List.append_eq_nil_iff] at hword
    exact absurd hword.2 Nat.toDigits_ne_nil
  | cons c word =>
    rw [hword] at hinteger hmem
    have hc := hmem c List.mem_cons_self
    have htrue : c :: word ≠ "true".toList := by
      intro h
      rw [(List.cons.inj h).1] at hc
      exact absurd hc (by decide)
    have hfalse : c :: word ≠ "false".toList := by
      intro h
      rw [(List.cons.inj h).1] at hc
      exact absurd hc (by decide)
    refine reads_word (hc.imp_left fun h => ?_) (fun d hd => ?_) ?_
    · rw [Char.isAlphanum, h, Bool.or_true]
    · unfold isWordChar isBareChar Char.isAlphanum
      rcases hmem d hd with hd | rfl
      · simp [hd]
      · rfl
    · unfold wordValue?
      rw [if_neg htrue, if_neg hfalse, hinteger]

theorem exists_quoted (cs : List Char) :
    ∃ mark text, quoted cs = mark :: text ∧ (mark = '"' ∨ mark = '\'') := by
  unfold quoted
  cases Style.ofText cs with
  | basic | longBasic => exact ⟨_, _, rfl, .inl rfl⟩
  | literal | longLiteral => exact ⟨_, _, rfl, .inr rfl⟩

theorem readValue_of_mark (depth : Nat) {mark : Char} (hmark : mark = '"' ∨ mark = '\'')
    {text text' rest : List Char} (h : readText (mark :: text) = some (text', rest)) :
    readValue depth (mark :: text) = some (.string (String.ofList text'), rest) := by
  rcases hmark with rfl | rfl <;> cases depth <;> rw [readValue, h] <;> simp

theorem Ended.unmarked {rest : List Char} (h : Ended rest) : Unmarked rest :=
  ⟨fun hmark => absurd (h _ hmark) (by decide), fun hmark => absurd (h _ hmark) (by decide)⟩

theorem reads_string (depth : Nat) (value : String) :
    Reads (readValue depth) (inlineText (.string value)) (.string value) := by
  obtain ⟨mark, text, heq, hmark⟩ := exists_quoted value.toList
  have hread : ∀ rest, Ended rest → readText (mark :: (text ++ rest)) = some (value.toList, rest) :=
    fun rest hrest => by
      rw [← List.cons_append, ← heq]
      exact readText_quoted value.toList hrest.unmarked
  rw [inlineText, heq]
  refine ⟨starts_cons ?_ text, fun rest hrest => ?_⟩
  · rcases hmark with rfl | rfl <;> decide
  · rw [List.cons_append, readValue_of_mark depth hmark (hread rest hrest), String.ofList_toList]

/-! ## Lists -/

section Items

variable {read : List Char → Option (ConfigTree × List Char)} {blanks text rest : List Char}
  {item : ConfigTree}

theorem readItems_nil (hblanks : ∀ c ∈ blanks, c = ' ' ∨ c = '\n') (rest : List Char) :
    readItems read (blanks ++ ']' :: rest) = some ([], rest) := by
  have hskip : skipLayout (blanks ++ ']' :: rest) = ']' :: rest :=
    (skipLayout_append hblanks _).trans (skipLayout_cons (by decide) rest)
  unfold readItems
  rw [hskip]
  rfl

theorem readItems_eq (h : Reads read text item) (hblanks : ∀ c ∈ blanks, c = ' ' ∨ c = '\n')
    {c : Char} (hc : c ∈ [',', ']']) (rest : List Char) :
    readItems read (blanks ++ (text ++ c :: rest)) =
      match c :: rest with
      | ']' :: rest => some ([item], rest)
      | ',' :: rest =>
        (readItems read rest).map fun p => (item :: p.1, p.2)
      | _ => none := by
  have hmarks : c ∈ [',', ']', '\n'] ∧ c ∉ [' ', '\t', '\n', '\r', '#'] := by
    simp only [List.mem_cons, List.not_mem_nil, or_false] at hc
    rcases hc with rfl | rfl <;> decide
  have hended : Ended (c :: rest) := ended_cons hmarks.1 rest
  have hmark : skipLayout (c :: rest) = c :: rest := skipLayout_cons hmarks.2 rest
  have hskip : skipLayout (blanks ++ (text ++ c :: rest)) = text ++ c :: rest :=
    (skipLayout_append hblanks _).trans (h.starts.append (c :: rest)).skipLayout
  rw [readItems, hskip]
  split
  · next heq =>
    obtain ⟨d, cs, rfl, hnot⟩ := h.starts.exists_cons
    obtain ⟨rfl, -⟩ := List.cons.inj heq
    exact absurd hnot (by decide)
  · rw [h.reads _ hended]
    simp only [Option.bind_eq_bind, Option.bind_some, hmark]
    simp only [List.mem_cons, List.not_mem_nil, or_false] at hc
    rcases hc with rfl | rfl
    · have hlt : rest.length < (blanks ++ (text ++ ',' :: rest)).length := by
        simp only [List.length_append, List.length_cons]
        omega
      simp only [if_pos hlt]
      cases readItems read rest <;> rfl
    · rfl

theorem readItems_inlineItems {items : List ConfigTree}
    (h : ∀ item ∈ items, Reads read (inlineText item) item)
    (hblanks : ∀ c ∈ blanks, c = ' ' ∨ c = '\n') (rest : List Char) :
    readItems read (blanks ++ (inlineItems items ++ ']' :: rest)) = some (items, rest) := by
  induction items generalizing blanks with
  | nil => exact readItems_nil hblanks rest
  | cons item items ih =>
    obtain ⟨hitem, hitems⟩ := List.forall_mem_cons.1 h
    cases items with
    | nil => exact readItems_eq hitem hblanks (by decide) rest
    | cons next items =>
      have hspace : ∀ c ∈ [' '], c = ' ' ∨ c = '\n' := List.forall_mem_singleton.2 (.inl rfl)
      have hnext := ih hitems hspace
      have htext : inlineItems (item :: next :: items) ++ ']' :: rest =
          inlineText item ++ ',' :: ([' '] ++ (inlineItems (next :: items) ++ ']' :: rest)) := by
        rw [inlineItems, List.append_assoc, List.append_assoc]
        · rfl
        · exact nofun
      rw [htext, readItems_eq hitem hblanks (by decide)]
      simp only [hnext]
      rfl

theorem readItems_itemLines {items : List ConfigTree}
    (h : ∀ item ∈ items, Reads read (inlineText item) item) (rest : List Char) :
    readItems read ('\n' :: (items.flatMap itemLine ++ ']' :: rest)) = some (items, rest) := by
  induction items with
  | nil =>
    have hline : ∀ c ∈ ['\n'], c = ' ' ∨ c = '\n' := List.forall_mem_singleton.2 (.inr rfl)
    exact readItems_nil hline rest
  | cons item items ih =>
    obtain ⟨hitem, hitems⟩ := List.forall_mem_cons.1 h
    have htext : '\n' :: ((item :: items).flatMap itemLine ++ ']' :: rest) =
        ('\n' :: "    ".toList) ++
          (inlineText item ++ ',' :: '\n' :: (items.flatMap itemLine ++ ']' :: rest)) := by
      rw [List.flatMap_cons, itemLine]
      simp only [List.cons_append, List.append_assoc, List.nil_append]
    have hindent : ∀ c ∈ '\n' :: "    ".toList, c = ' ' ∨ c = '\n' := by simp
    rw [htext, readItems_eq hitem hindent (by decide)]
    simp only [ih hitems]
    rfl

end Items

theorem reads_brackets {depth : Nat} {items : List ConfigTree} {text : List Char}
    (h : ∀ rest, readItems (readValue depth) (text ++ ']' :: rest) = some (items, rest)) :
    Reads (readValue (depth + 1)) ('[' :: text ++ [']']) (.list items) where
  starts := starts_cons (by decide) _
  reads rest _ := by
    rw [List.cons_append, List.cons_append, List.append_assoc, List.singleton_append, readValue, h]
    rfl

/-- A value is read back from one line. -/
theorem Readable.reads_inlineText {room : Nat} {value : ConfigTree} (h : Readable room value) :
    Reads (readValue room) (inlineText value) value := by
  induction h with
  | boolean => exact reads_boolean _ _
  | integer low high => exact reads_integer _ low high
  | string => exact reads_string _ _
  | list _ ih =>
    have hnone : ∀ c ∈ ([] : List Char), c = ' ' ∨ c = '\n' := List.forall_mem_nil _
    rw [inlineText]
    exact reads_brackets fun rest => readItems_inlineItems ih hnone rest

theorem Readable.reads_valueText {room : Nat} {value : ConfigTree} (h : Readable room value) :
    Reads (readValue room) (valueText value) value := by
  unfold valueText
  split
  · next first second rest =>
    cases h with
    | list items_readable =>
      refine reads_brackets fun rest => ?_
      have hitems := fun item hitem => (items_readable item hitem).reads_inlineText
      exact readItems_itemLines hitems rest
  · exact h.reads_inlineText

/-! ## Statements -/

theorem exists_quotedKey (cs : List Char) : ∃ c rest, quotedKey cs = c :: rest ∧
    c ∉ [' ', '\t', '\n', '\r', '#', ']', '\uFEFF'] ++ ['['] := by
  unfold quotedKey
  split_ifs with hbare
  · rw [Bool.and_eq_true, List.all_eq_true] at hbare
    cases cs with
    | nil => exact nomatch hbare.1
    | cons c cs =>
      refine ⟨c, cs, rfl, fun hmem => ?_⟩
      have hc := hbare.2 c List.mem_cons_self
      simp only [List.cons_append, List.nil_append, List.mem_cons, List.not_mem_nil,
        or_false] at hmem
      rcases hmem with rfl | rfl | rfl | rfl | rfl | rfl | rfl | rfl <;> exact absurd hc (by decide)
  · cases Style.ofKey cs <;> exact ⟨_, _, rfl, by decide⟩

theorem starts_quotedKey (cs : List Char) : Starts (quotedKey cs) := by
  obtain ⟨c, rest, heq, hnot⟩ := exists_quotedKey cs
  rw [heq]
  exact starts_cons (fun hmem => hnot (List.mem_append_left _ hmem)) rest

theorem pathText_cons (key : String) {path : List String} (h : path ≠ []) :
    pathText (key :: path) = quotedKey key.toList ++ '.' :: pathText path := by
  cases path with
  | nil => exact absurd rfl h
  | cons next path =>
    unfold pathText
    rw [List.map_cons, List.map_cons, List.intercalate_cons_cons, List.append_assoc]
    rfl

theorem exists_pathText {path : List String} (h : path ≠ []) : ∃ c rest, pathText path = c :: rest ∧
    c ∉ [' ', '\t', '\n', '\r', '#', ']', '\uFEFF'] ++ ['['] := by
  cases path with
  | nil => exact absurd rfl h
  | cons key path =>
    obtain ⟨c, rest, heq, hnot⟩ := exists_quotedKey key.toList
    cases path with
    | nil => exact ⟨c, rest, List.intercalate_singleton.trans heq, hnot⟩
    | cons next path =>
      rw [pathText_cons key (List.cons_ne_nil next path), heq]
      exact ⟨c, _, rfl, hnot⟩

theorem readKeys_last (key : String) {rest : List Char}
    (hbare : ∀ c ∈ rest.head?, isBareChar c = false) (hdot : (skipSpaces rest).head? ≠ some '.') :
    readKeys (quotedKey key.toList ++ rest) = some ([key], skipSpaces rest) := by
  rw [readKeys, ((starts_quotedKey key.toList).append rest).skipSpaces,
    readKey_quotedKey key.toList hbare]
  simp only [Option.bind_eq_bind, Option.bind_some]
  split
  · next heq => exact absurd (congrArg List.head? heq) hdot
  · rw [String.ofList_toList]
    rfl

theorem readKeys_cons (key : String) (rest : List Char) :
    readKeys (quotedKey key.toList ++ '.' :: rest) =
      (readKeys rest).map fun p => (key :: p.1, p.2) := by
  have hlt : rest.length < (quotedKey key.toList ++ '.' :: rest).length := by
    rw [List.length_append, List.length_cons]
    omega
  have hskip : skipSpaces ('.' :: rest) = '.' :: rest := rfl
  have hbare : ∀ c ∈ ('.' :: rest).head?, isBareChar c = false := fun c hc =>
    Option.some.inj hc ▸ rfl
  rw [readKeys, ((starts_quotedKey key.toList).append _).skipSpaces,
    readKey_quotedKey key.toList hbare]
  simp only [Option.bind_eq_bind, Option.bind_some, hskip, if_pos hlt, String.ofList_toList]
  cases readKeys rest <;> rfl

/-- Keys are read back, with the white space after them. -/
theorem readPath_pathText {path : List String} (hne : path ≠ []) (hlength : path.length < pathLimit)
    {rest : List Char} (hbare : ∀ c ∈ rest.head?, isBareChar c = false)
    (hdot : (skipSpaces rest).head? ≠ some '.') :
    readPath (pathText path ++ rest) = some (path, skipSpaces rest) := by
  have hkeys : readKeys (pathText path ++ rest) = some (path, skipSpaces rest) := by
    clear hlength
    induction path with
    | nil => exact absurd rfl hne
    | cons key path ih =>
      cases path with
      | nil =>
        have htext : pathText [key] = quotedKey key.toList := List.intercalate_singleton
        rw [htext]
        exact readKeys_last key hbare hdot
      | cons next path =>
        rw [pathText_cons key (List.cons_ne_nil next path), List.append_assoc, List.cons_append,
          readKeys_cons, ih (List.cons_ne_nil next path)]
        rfl
  have hguard : (guard (path.length < pathLimit) : Option Unit) = some () := if_pos hlength
  unfold readPath
  rw [hkeys]
  show (guard (path.length < pathLimit) : Option Unit).bind _ = _
  rw [hguard]
  rfl

/-- What statements can be read back. -/
def Statement.Readable : Statement → Prop
  | .header path | .element path => path ≠ [] ∧ path.length < pathLimit
  | .pair path value => path ≠ [] ∧ path.length < pathLimit ∧ Toml.Readable depthLimit value

theorem Statement.starts_text {s : Statement} (h : s.Readable) : Starts s.text := by
  cases s with
  | header path | element path => exact starts_cons (by decide) _
  | pair path value =>
    obtain ⟨c, rest, heq, hnot⟩ := exists_pathText h.1
    show Starts (pathText path ++ " = ".toList ++ valueText value ++ ['\n'])
    rw [heq]
    exact starts_cons (fun hmem => hnot (List.mem_append_left _ hmem)) _

theorem readPath_bracket {path : List String} (hne : path ≠ []) (hlength : path.length < pathLimit)
    (rest : List Char) : readPath (pathText path ++ ']' :: rest) = some (path, ']' :: rest) :=
  readPath_pathText hne hlength (fun _ hc => Option.some.inj hc ▸ rfl) nofun

theorem pathText_append_ne {path : List String} (h : path ≠ []) (rest cs : List Char) :
    pathText path ++ rest ≠ '[' :: cs := by
  obtain ⟨c, tail, heq, hnot⟩ := exists_pathText h
  intro heq'
  rw [heq] at heq'
  obtain ⟨rfl, -⟩ := List.cons.inj heq'
  exact absurd hnot (by decide)

theorem readPair_text {path : List String} {value : ConfigTree} (hne : path ≠ [])
    (hlength : path.length < pathLimit)
    (hreads : Reads (readValue depthLimit) (valueText value) value) (rest : List Char) :
    readPair (readValue depthLimit)
        (pathText path ++ ' ' :: '=' :: ' ' :: (valueText value ++ '\n' :: rest)) =
      some ((path, value), '\n' :: rest) := by
  have hpath :
      readPath (pathText path ++ ' ' :: '=' :: ' ' :: (valueText value ++ '\n' :: rest)) =
        some (path, '=' :: ' ' :: (valueText value ++ '\n' :: rest)) :=
    readPath_pathText hne hlength (fun _ hc => Option.some.inj hc ▸ rfl) nofun
  have hskip : skipSpaces (' ' :: (valueText value ++ '\n' :: rest)) =
      valueText value ++ '\n' :: rest := (hreads.starts.append _).skipSpaces
  have hread := hreads.reads _ (ended_cons (show '\n' ∈ _ by decide) rest)
  unfold readPair
  simp only [hpath, hskip, hread, Option.bind_eq_bind, Option.bind_some, Option.pure_def]

/-- A statement is read back with the end of its line. -/
theorem readStatement_text {s : Statement} (h : s.Readable) (rest : List Char) :
    readStatement (s.text ++ rest) = some (s, rest) := by
  cases s with
  | header path =>
    have htext : (Statement.header path).text ++ rest =
        '[' :: (pathText path ++ ']' :: '\n' :: rest) := by
      rw [Statement.text, List.cons_append, List.cons_append, List.append_assoc]
      rfl
    rw [htext, readStatement, readPath_bracket h.1 h.2]
    · rfl
    · exact pathText_append_ne h.1 _
  | element path =>
    have htext : (Statement.element path).text ++ rest =
        '[' :: '[' :: (pathText path ++ ']' :: ']' :: '\n' :: rest) := by
      rw [Statement.text, List.cons_append, List.cons_append, List.cons_append, List.cons_append,
        List.append_assoc]
      rfl
    rw [htext, readStatement, readPath_bracket h.1 h.2]
    rfl
  | pair path value =>
    obtain ⟨hne, hlength, hvalue⟩ := h
    have htext : (Statement.pair path value).text ++ rest =
        pathText path ++ ' ' :: '=' :: ' ' :: (valueText value ++ '\n' :: rest) := by
      show pathText path ++ " = ".toList ++ valueText value ++ ['\n'] ++ rest = _
      simp only [List.append_assoc]
      rfl
    rw [htext, readStatement, readPair_text hne hlength hvalue.reads_valueText]
    · rfl
    · exact fun _ => pathText_append_ne hne _ _
    · exact fun _ => pathText_append_ne hne _ _

/-! ## Documents -/

theorem readStatements_cons {s : Statement} (h : s.Readable) {blanks : List Char}
    (hblanks : ∀ c ∈ blanks, c = ' ' ∨ c = '\n') (rest : List Char) :
    readStatements (blanks ++ (s.text ++ rest)) = (readStatements rest).map (s :: ·) := by
  have hstarts := (Statement.starts_text h).append rest
  have hskip : skipLayout (blanks ++ (s.text ++ rest)) = s.text ++ rest :=
    (skipLayout_append hblanks _).trans hstarts.skipLayout
  have hlt : rest.length < (blanks ++ (s.text ++ rest)).length := by
    obtain ⟨c, cs, heq, -⟩ := (Statement.starts_text h).exists_cons
    rw [heq]
    simp only [List.length_append, List.length_cons]
    omega
  rw [readStatements, hskip]
  split
  · next heq =>
    obtain ⟨c, cs, heq', -⟩ := hstarts.exists_cons
    exact absurd (heq'.symm.trans heq) (List.cons_ne_nil _ _)
  · rw [readStatement_text h]
    simp only [Option.bind_eq_bind, Option.bind_some, if_pos hlt]
    cases readStatements rest <;> rfl

/-- A document is read back as its statements. -/
theorem readStatements_documentText {ss : List Statement} (h : ∀ s ∈ ss, s.Readable) :
    readStatements (documentText ss) = some ss := by
  have hrest : ∀ ss : List Statement, (∀ s ∈ ss, s.Readable) → readStatements
      (ss.flatMap fun s => (if s.isHeader then ['\n'] else []) ++ s.text) = some ss := by
    intro ss hss
    induction ss with
    | nil =>
      rw [List.flatMap_nil, readStatements, skipLayout]
    | cons s ss ih =>
      obtain ⟨hs, hss⟩ := List.forall_mem_cons.1 hss
      rw [List.flatMap_cons, List.append_assoc, readStatements_cons hs, ih hss]
      · rfl
      · split_ifs <;> simp
  cases ss with
  | nil => exact hrest [] h
  | cons s ss =>
    obtain ⟨hs, hss⟩ := List.forall_mem_cons.1 h
    have hnone : ∀ c ∈ ([] : List Char), c = ' ' ∨ c = '\n' := List.forall_mem_nil _
    have hread := readStatements_cons hs hnone
      (ss.flatMap fun s => (if s.isHeader then ['\n'] else []) ++ s.text)
    rw [hrest ss hss] at hread
    exact hread

theorem dropOrderMark_documentText {ss : List Statement} (h : ∀ s ∈ ss, s.Readable) :
    dropOrderMark (documentText ss) = documentText ss := by
  cases ss with
  | nil => rfl
  | cons s ss =>
    obtain ⟨c, cs, heq, hnot⟩ := (Statement.starts_text (h s List.mem_cons_self)).exists_cons
    rw [documentText, heq]
    unfold dropOrderMark
    split
    · next heq' =>
      obtain ⟨rfl, -⟩ := List.cons.inj heq'
      exact absurd hnot (by decide)
    · rfl

end Toml

end Lineage
