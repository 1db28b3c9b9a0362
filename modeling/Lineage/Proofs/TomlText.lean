import Lineage.Toml.Text
import Mathlib.Tactic.SplitIfs

/-!
# Texts and keys of TOML

What the writer of TOML puts between delimiters is read back as the text it stands for, whichever of
the four ways to write it is taken (`readText_quoted`), and so is a key (`readKey_quotedKey`).
Between three quotes up to two may stand by themselves, also right before the closing ones; the
reader is followed from the first quote of such a run (`readLongBasic_escape`).
-/

namespace Lineage

namespace Toml

/-! ## Escapes -/

theorem toNat_lt_of_isControl {c : Char} (h : isControl c = true) : c.toNat < 0x10000 := by
  unfold isControl at h
  simp only [Bool.or_eq_true, Bool.and_eq_true, decide_eq_true_eq] at h
  rcases h with ⟨h, -⟩ | rfl
  · omega
  · decide

theorem escape?_hexDigits {c : Char} (h : c.toNat < 0x10000) (rest : List Char) :
    escape? ('u' :: (hexDigits 'A' c.toNat ++ rest)) = some (c, rest) := by
  have hvalue := hexValue?_hexDigits (Or.inr rfl) h
  have hvalid : c.toNat.isValidChar := c.valid
  show unicode? 4 (hexDigits 'A' c.toNat ++ rest) = _
  have htake : (hexDigits 'A' c.toNat ++ rest).take 4 = hexDigits 'A' c.toNat := rfl
  have hdrop : (hexDigits 'A' c.toNat ++ rest).drop 4 = rest := rfl
  have hlength : 4 ≤ (hexDigits 'A' c.toNat ++ rest).length := Nat.le_add_left 4 rest.length
  have hlengthGuard : (guard (4 ≤ (hexDigits 'A' c.toNat ++ rest).length) : Option Unit) =
      some () := if_pos hlength
  have hvalidGuard : (guard c.toNat.isValidChar : Option Unit) = some () := if_pos hvalid
  unfold unicode?
  rw [htake, hvalue, hdrop, hlengthGuard]
  show (guard c.toNat.isValidChar : Option Unit).bind _ = _
  rw [hvalidGuard, Option.bind_some, Char.ofNat_toNat]
  rfl

/-- A character that is escaped is read as an escape, and any other one stands for itself. -/
theorem escapeChar_cases (long : Bool) {c : Char} (hquote : c ≠ '"') :
    (∃ e cs, escapeChar long c = '\\' :: e :: cs ∧ e ∉ [' ', '\t', '\n', '\r'] ∧
      ∀ rest, escape? (e :: (cs ++ rest)) = some (c, rest)) ∨
    (escapeChar long c = [c] ∧ c ≠ '\\' ∧ c ≠ '\r' ∧
      (isControl c = false ∨ long = true ∧ c = '\n')) := by
  unfold escapeChar
  split
  · exact .inl ⟨_, _, rfl, by decide, fun _ => rfl⟩
  · exact .inl ⟨_, _, rfl, by decide, fun _ => rfl⟩
  · cases long with
    | false => exact .inl ⟨_, _, rfl, by decide, fun _ => rfl⟩
    | true => exact .inr ⟨rfl, by decide, by decide, .inr ⟨rfl, rfl⟩⟩
  · exact .inl ⟨_, _, rfl, by decide, fun _ => rfl⟩
  · exact .inl ⟨_, _, rfl, by decide, fun _ => rfl⟩
  · exact .inl ⟨_, _, rfl, by decide, fun _ => rfl⟩
  · next hreturn hslash =>
    split_ifs with hcontrol
    · exact .inl ⟨_, _, rfl, by decide, escape?_hexDigits (toNat_lt_of_isControl hcontrol)⟩
    · exact .inr ⟨rfl, hslash, hreturn, .inl (Bool.eq_false_iff.2 hcontrol)⟩

theorem escape_cons (long : Bool) (quotes : Nat) {c : Char} (hquote : c ≠ '"') (cs : List Char) :
    escape long quotes (c :: cs) = escapeChar long c ++ escape long 0 cs := by
  rw [escape]
  exact fun h => hquote h

/-- What a text starts with between quotes, if it has no quote in front. -/
theorem head?_escapeChar (long : Bool) {c : Char} (hquote : c ≠ '"') (rest : List Char) :
    ∃ first, (escapeChar long c ++ rest).head? = some first ∧ first ≠ '"' ∧ first ≠ '\r' ∧
      (first = '\n' → c = '\n') := by
  rcases escapeChar_cases long hquote with ⟨e, cs, heq, -, -⟩ | ⟨heq, -, hreturn, -⟩
  · exact ⟨'\\', by rw [heq]; rfl, by decide, by decide, fun h => nomatch h⟩
  · exact ⟨c, by rw [heq]; rfl, hquote, hreturn, id⟩

theorem of_head?_escape {long : Bool} {quotes : Nat} {cs : List Char} {first : Char}
    (h : (escape long quotes cs).head? = some first) :
    first ≠ '\r' ∧ (first = '"' → long = true) ∧ (first = '\n' → '\n' ∈ cs) := by
  cases cs with
  | nil => exact nomatch h
  | cons c cs =>
    by_cases hquote : c = '"'
    · subst hquote
      rw [escape] at h
      split_ifs at h with hfew
      · obtain rfl := Option.some.inj h
        exact ⟨by decide, fun _ => (Bool.and_eq_true_iff.1 hfew).1, nofun⟩
      · obtain rfl := Option.some.inj h
        exact ⟨by decide, nofun, nofun⟩
    · obtain ⟨first', heq, hne, hreturn, hline⟩ := head?_escapeChar long hquote (escape long 0 cs)
      rw [escape_cons long quotes hquote, heq] at h
      obtain rfl := Option.some.inj h
      exact ⟨hreturn, fun h => absurd h hne, fun h => hline h ▸ List.mem_cons_self⟩

/-! ## Between quotes -/

theorem readBasic_escaped {e c : Char} {cs rest : List Char}
    (h : escape? (e :: cs) = some (c, rest)) :
    readBasic ('\\' :: e :: cs) = (readBasic rest).map (consText c) := by
  rw [readBasic]
  split
  · next hnone => exact absurd (h.symm.trans hnone) (Option.some_ne_none _)
  · next d after hsome =>
    obtain ⟨rfl, rfl⟩ := Prod.mk.inj (Option.some.inj (h.symm.trans hsome))
    rfl

theorem readBasic_escapeChar {c : Char} (hquote : c ≠ '"') (rest : List Char) :
    readBasic (escapeChar false c ++ rest) = (readBasic rest).map (consText c) := by
  rcases escapeChar_cases false hquote with ⟨e, cs, heq, -, hescape⟩ | ⟨heq, hslash, -, hplain⟩
  · rw [heq]
    exact readBasic_escaped (hescape rest)
  · have hcontrol : isControl c = false := hplain.elim id fun h => nomatch h.1
    rw [heq, List.singleton_append, readBasic]
    · simp [hcontrol]
    · exact fun h => hquote h
    · exact fun h => hslash h

theorem readBasic_escape (quotes : Nat) (cs rest : List Char) :
    readBasic (escape false quotes cs ++ '"' :: rest) = some (cs, rest) := by
  induction cs generalizing quotes with
  | nil =>
    show readBasic ('"' :: rest) = _
    rw [readBasic]
  | cons c cs ih =>
    by_cases hquote : c = '"'
    · subst hquote
      show readBasic ('\\' :: '"' :: (escape false 0 cs ++ '"' :: rest)) = _
      rw [readBasic_escaped rfl, ih]
      rfl
    · rw [escape_cons false quotes hquote, List.append_assoc, readBasic_escapeChar hquote, ih]
      rfl

/-! ## Runs of marks -/

/-- Up to two marks by themselves belong to the text, for a reader that passes over one unless two
more follow. -/
theorem read_replicate {mark : Char} {read : List Char → Option (List Char × List Char)}
    (hread : ∀ cs, cs.take 2 ≠ [mark, mark] → read (mark :: cs) = (read cs).map (consText mark))
    {count : Nat} (hcount : count ≤ 2) {cs : List Char} (h : cs.head? ≠ some mark) :
    read (List.replicate count mark ++ cs) =
      (read cs).map fun p => (List.replicate count mark ++ p.1, p.2) := by
  have hone : cs.take 2 ≠ [mark, mark] := by
    intro heq
    cases cs with
    | nil => exact nomatch heq
    | cons c cs => exact h (congrArg some (List.cons.inj heq).1)
  have htwo : (mark :: cs).take 2 ≠ [mark, mark] := by
    intro heq
    cases cs with
    | nil => exact nomatch heq
    | cons c cs => exact h (congrArg some (List.cons.inj (List.cons.inj heq).2).1)
  match count, hcount with
  | 0, _ => exact Option.map_id'.symm
  | 1, _ => exact hread cs hone
  | 2, _ =>
    show read (mark :: mark :: cs) = _
    rw [hread _ htwo, hread cs hone, Option.map_map]
    rfl

theorem replicate_append_three {mark : Char} {count : Nat} (hcount : count ≤ 2)
    (rest : List Char) : List.replicate count mark ++ (mark :: mark :: mark :: rest) =
      mark :: mark :: mark :: (List.replicate count mark ++ rest) := by
  match count, hcount with
  | 0, _ | 1, _ | 2, _ => rfl

/-- Up to two marks after three closing ones belong to the text. -/
theorem trailingMarks_replicate {mark : Char} {count : Nat} (hcount : count ≤ 2)
    {rest : List Char} (hrest : rest.head? ≠ some mark) :
    trailingMarks mark (List.replicate count mark ++ rest) = (List.replicate count mark, rest) := by
  have hmarks : ((List.replicate count mark ++ rest).take 2).takeWhile (· = mark) =
      List.replicate count mark := by
    rw [List.take_append, List.take_replicate, Nat.min_eq_right hcount, List.length_replicate,
      List.takeWhile_append_of_pos (by simp)]
    cases rest with
    | nil => simp
    | cons c rest =>
      have hc : c ≠ mark := fun h => hrest (congrArg some h)
      cases 2 - count <;> simp [hc]
  unfold trailingMarks
  rw [hmarks]
  exact congrArg (List.replicate count mark, ·) List.drop_left

/-! ## Between three quotes -/

theorem readLongBasic_quote {cs : List Char} (h : cs.take 2 ≠ ['"', '"']) :
    readLongBasic ('"' :: cs) = (readLongBasic cs).map (consText '"') := by
  rw [readLongBasic]
  · rfl
  · rintro rest - rfl
    exact h rfl
  · decide
  · exact fun _ h => absurd h (by decide)

theorem continuation?_cons {c : Char} (h : c ∉ [' ', '\t', '\n', '\r']) (cs : List Char) :
    continuation? (c :: cs) = none := by
  simp only [List.mem_cons, List.not_mem_nil, or_false, not_or] at h
  obtain ⟨hspace, htab, hline, hreturn⟩ := h
  have hskip : skipSpaces (c :: cs) = c :: cs :=
    List.dropWhile_cons_of_neg (by simp [isSpace, hspace, htab])
  unfold continuation? lineEnd?
  rw [hskip]
  split
  · next heq => exact absurd (List.cons.inj heq).1 hline
  · next heq => exact absurd (List.cons.inj heq).1 hreturn
  · rfl

theorem readLongBasic_escaped {e c : Char} {cs rest : List Char}
    (he : e ∉ [' ', '\t', '\n', '\r']) (h : escape? (e :: cs) = some (c, rest)) :
    readLongBasic ('\\' :: e :: cs) = (readLongBasic rest).map (consText c) := by
  have hnone := continuation?_cons he cs
  rw [readLongBasic]
  split
  · next hsome => exact absurd (hsome.symm.trans hnone) (Option.some_ne_none _)
  · split
    · next hescape => exact absurd (h.symm.trans hescape) (Option.some_ne_none _)
    · next hescape =>
      obtain ⟨rfl, rfl⟩ := Prod.mk.inj (Option.some.inj (h.symm.trans hescape))
      rfl

theorem readLongBasic_escapeChar {c : Char} (hquote : c ≠ '"') (rest : List Char) :
    readLongBasic (escapeChar true c ++ rest) = (readLongBasic rest).map (consText c) := by
  rcases escapeChar_cases true hquote with ⟨e, cs, heq, he, hescape⟩ |
    ⟨heq, hslash, hreturn, hplain⟩
  · rw [heq]
    exact readLongBasic_escaped he (hescape rest)
  · rw [heq, List.singleton_append, readLongBasic]
    · rcases hplain with hcontrol | ⟨-, rfl⟩
      · simp [hcontrol]
      · rfl
    · exact fun _ h _ => hquote h
    · exact fun h => hslash h
    · exact fun _ h _ => hreturn h

/-- A text is read back from between three quotes, together with quotes right before it. -/
theorem readLongBasic_escape {quotes : Nat} (hquotes : quotes ≤ 2) (cs : List Char)
    {rest : List Char} (hrest : rest.head? ≠ some '"') :
    readLongBasic (List.replicate quotes '"' ++ (escape true quotes cs ++
        ('"' :: '"' :: '"' :: rest))) = some (List.replicate quotes '"' ++ cs, rest) := by
  induction cs generalizing quotes with
  | nil =>
    rw [escape, List.nil_append, replicate_append_three hquotes, readLongBasic,
      trailingMarks_replicate hquotes hrest, List.append_nil]
  | cons c cs ih =>
    by_cases hquote : c = '"'
    · subst hquote
      by_cases hfew : quotes < 2
      · -- one more quote by itself
        have hescape : escape true quotes ('"' :: cs) = '"' :: escape true (quotes + 1) cs := by
          rw [escape, if_pos (by simpa using hfew)]
        have hnext := ih (show quotes + 1 ≤ 2 from hfew)
        rw [List.replicate_succ', List.append_assoc, List.append_assoc] at hnext
        rw [hescape]
        exact hnext
      · have hescape : escape true quotes ('"' :: cs) = '\\' :: '"' :: escape true 0 cs := by
          rw [escape, if_neg (by simpa using hfew)]
        have hnext := ih (Nat.zero_le 2)
        rw [List.replicate_zero, List.nil_append, List.nil_append] at hnext
        rw [hescape, List.cons_append, List.cons_append,
          read_replicate (fun _ => readLongBasic_quote) hquotes (by simp),
          readLongBasic_escaped (by decide) rfl, hnext]
        rfl
    · have hnext := ih (Nat.zero_le 2)
      rw [List.replicate_zero, List.nil_append, List.nil_append] at hnext
      obtain ⟨first, hfirst, hne, -⟩ := head?_escapeChar true hquote
        (escape true 0 cs ++ '"' :: '"' :: '"' :: rest)
      rw [escape_cons true quotes hquote, List.append_assoc,
        read_replicate (fun _ => readLongBasic_quote) hquotes (by rw [hfirst]; simpa using hne),
        readLongBasic_escapeChar hquote, hnext]
      rfl

/-! ## Between apostrophes -/

theorem readLiteral_append {cs : List Char} (hmark : '\'' ∉ cs)
    (hplain : ∀ c ∈ cs, isControl c = false) (rest : List Char) :
    readLiteral (cs ++ '\'' :: rest) = some (cs, rest) := by
  induction cs with
  | nil => rfl
  | cons c cs ih =>
    obtain ⟨hc, hcs⟩ := List.forall_mem_cons.1 hplain
    rw [List.mem_cons, not_or] at hmark
    rw [List.cons_append, readLiteral, hc, ih hmark.2 hcs]
    · rfl
    · exact fun h => hmark.1 h.symm

theorem readLongLiteral_cons {c : Char} {cs : List Char}
    (hmark : c = '\'' → cs.take 2 ≠ ['\'', '\'']) (hplain : isControl c = false ∨ c = '\n') :
    readLongLiteral (c :: cs) = (readLongLiteral cs).map (consText c) := by
  have hreturn : c ≠ '\r' := by
    rintro rfl
    exact hplain.elim (fun h => nomatch h) fun h => nomatch h
  rw [readLongLiteral]
  · rcases hplain with hcontrol | rfl
    · simp [hcontrol]
    · rfl
  · rintro rest hc rfl
    exact hmark hc rfl
  · exact fun _ h _ => hreturn h

theorem le_longestRun (mark : Char) (count : Nat) (cs : List Char) :
    count ≤ longestRun mark count cs := by
  induction cs generalizing count with
  | nil => exact Nat.le_refl count
  | cons c cs ih =>
    rw [longestRun]
    split_ifs
    · exact Nat.le_of_succ_le (ih (count + 1))
    · exact Nat.le_max_left _ _

/-- A text is read back from between three apostrophes, together with some right before it. -/
theorem readLongLiteral_append {count : Nat} {cs rest : List Char}
    (hrun : longestRun '\'' count cs ≤ 2)
    (hplain : ∀ c ∈ cs, isControl c = false ∨ c = '\n') (hrest : rest.head? ≠ some '\'') :
    readLongLiteral (List.replicate count '\'' ++ (cs ++ ('\'' :: '\'' :: '\'' :: rest))) =
      some (List.replicate count '\'' ++ cs, rest) := by
  have hcount : count ≤ 2 := Nat.le_trans (le_longestRun '\'' count cs) hrun
  induction cs generalizing count with
  | nil =>
    rw [List.nil_append, replicate_append_three hcount, readLongLiteral,
      trailingMarks_replicate hcount hrest, List.append_nil]
  | cons c cs ih =>
    obtain ⟨hc, hcs⟩ := List.forall_mem_cons.1 hplain
    rw [longestRun] at hrun
    by_cases hmark : c = '\''
    · subst hmark
      rw [if_pos rfl] at hrun
      have hnext := ih hrun hcs (Nat.le_trans (le_longestRun _ _ _) hrun)
      rw [List.replicate_succ', List.append_assoc, List.append_assoc] at hnext
      exact hnext
    · rw [if_neg hmark] at hrun
      have hnext := ih (Nat.le_trans (Nat.le_max_right _ _) hrun) hcs (Nat.zero_le 2)
      rw [List.replicate_zero, List.nil_append, List.nil_append] at hnext
      rw [List.cons_append, read_replicate (fun _ h => readLongLiteral_cons (fun _ => h) (.inl rfl))
        hcount (by simpa using hmark), readLongLiteral_cons (fun h => absurd h hmark) hc, hnext]
      rfl

/-! ## Whole texts -/

theorem dropLineEnd_eq {cs : List Char} (hline : cs.head? ≠ some '\n')
    (hreturn : cs.head? ≠ some '\r') : dropLineEnd cs = cs := by
  unfold dropLineEnd lineEnd?
  split
  · exact absurd rfl hline
  · exact absurd rfl hreturn
  · rfl

/-- The end of a line in front of a text of several lines does not count. -/
theorem dropLineEnd_firstLineEnd {cs text : List Char}
    (htext : '\n' ∉ cs → text.head? ≠ some '\n' ∧ text.head? ≠ some '\r') :
    dropLineEnd (firstLineEnd cs ++ text) = text := by
  unfold firstLineEnd
  split_ifs with hline
  · rfl
  · obtain ⟨hfirst, hreturn⟩ := htext (by simpa using hline)
    exact dropLineEnd_eq hfirst hreturn

theorem readText_quote {cs : List Char} (h : cs.take 2 ≠ ['"', '"']) :
    readText ('"' :: cs) = readBasic cs := by
  rw [readText]
  rintro rest rfl
  exact h rfl

theorem readText_apostrophe {cs : List Char} (h : cs.take 2 ≠ ['\'', '\'']) :
    readText ('\'' :: cs) = readLiteral cs := by
  rw [readText]
  rintro rest rfl
  exact h rfl

theorem take_two_ne {mark : Char} {cs rest : List Char} (hcs : cs.head? ≠ some mark)
    (hrest : rest.head? ≠ some mark) : (cs ++ mark :: rest).take 2 ≠ [mark, mark] := by
  intro heq
  cases cs with
  | nil =>
    cases rest with
    | nil => exact nomatch heq
    | cons c rest => exact hrest (congrArg some (List.cons.inj (List.cons.inj heq).2).1)
  | cons c cs => exact hcs (congrArg some (List.cons.inj heq).1)

/-- What comes after a text is no mark that could be taken for a part of it. -/
def Unmarked (rest : List Char) : Prop :=
  rest.head? ≠ some '"' ∧ rest.head? ≠ some '\''

/-- What a way to write texts asks of them. -/
def Style.Allows (style : Style) (cs : List Char) : Prop :=
  match style with
  | .basic | .longBasic => True
  | .literal => '\'' ∉ cs ∧ ∀ c ∈ cs, isControl c = false
  | .longLiteral => longestRun '\'' 0 cs ≤ 2 ∧ ∀ c ∈ cs, isControl c = false ∨ c = '\n'

theorem dropLineEnd_escape (cs rest : List Char) :
    dropLineEnd (firstLineEnd cs ++ (escape true 0 cs ++ '"' :: rest)) =
      escape true 0 cs ++ '"' :: rest := by
  refine dropLineEnd_firstLineEnd fun hline => ?_
  rw [List.head?_append]
  cases hfirst : (escape true 0 cs).head? with
  | none => exact ⟨nofun, nofun⟩
  | some first =>
    obtain ⟨hreturn, -, hmem⟩ := of_head?_escape hfirst
    exact ⟨fun h => hline (hmem (Option.some.inj h)), fun h => hreturn (Option.some.inj h)⟩

/-- A line end before a text that stands as it is is all that is dropped. -/
theorem dropLineEnd_plain {cs : List Char} (h : ∀ c ∈ cs, isControl c = false ∨ c = '\n')
    (rest : List Char) :
    dropLineEnd (firstLineEnd cs ++ (cs ++ '\'' :: rest)) = cs ++ '\'' :: rest := by
  refine dropLineEnd_firstLineEnd fun hline => ?_
  cases cs with
  | nil => exact ⟨nofun, nofun⟩
  | cons c cs =>
    have hplain := h c List.mem_cons_self
    rw [List.mem_cons, not_or] at hline
    refine ⟨fun h => hline.1 (Option.some.inj h).symm, fun h => ?_⟩
    obtain rfl : c = '\r' := Option.some.inj h
    exact hplain.elim nofun nofun

theorem readText_wrap {style : Style} {cs rest : List Char} (h : style.Allows cs)
    (hrest : Unmarked rest) : readText (style.wrap cs ++ rest) = some (cs, rest) := by
  cases style with
  | basic =>
    have hfirst : (escape false 0 cs).head? ≠ some '"' := fun h =>
      nomatch (of_head?_escape h).2.1 rfl
    show readText ('"' :: (escape false 0 cs ++ ['"']) ++ rest) = _
    rw [List.cons_append, List.append_assoc, List.singleton_append,
      readText_quote (take_two_ne hfirst hrest.1), readBasic_escape]
  | literal =>
    have hfirst : cs.head? ≠ some '\'' := fun hcs => h.1 (List.mem_of_head? hcs)
    show readText ('\'' :: (cs ++ ['\'']) ++ rest) = _
    rw [List.cons_append, List.append_assoc, List.singleton_append,
      readText_apostrophe (take_two_ne hfirst hrest.2), readLiteral_append h.1 h.2]
  | longBasic =>
    have hread := readLongBasic_escape (Nat.zero_le 2) cs hrest.1
    show readText ('"' :: '"' :: '"' :: firstLineEnd cs ++ escape true 0 cs ++ ['"', '"', '"'] ++
      rest) = _
    simp only [List.cons_append, List.append_assoc, List.nil_append]
    rw [readText, dropLineEnd_escape]
    exact hread
  | longLiteral =>
    have hread := readLongLiteral_append h.1 h.2 hrest.2
    show readText ('\'' :: '\'' :: '\'' :: firstLineEnd cs ++ cs ++ ['\'', '\'', '\''] ++
      rest) = _
    simp only [List.cons_append, List.append_assoc, List.nil_append]
    rw [readText, dropLineEnd_plain h.2]
    exact hread

theorem allows_ofText (cs : List Char) : (Style.ofText cs).Allows cs := by
  unfold Style.ofText
  simp only []
  split_ifs with h1 h2 h3 h4 h5
  · trivial
  · simp only [Bool.and_eq_true, Bool.not_eq_true', List.all_eq_true] at h2
    obtain ⟨⟨hplain, hline⟩, hmark⟩ := h2
    refine ⟨by simpa using hmark, fun c hc => ?_⟩
    have hne : c ≠ '\n' := by
      rintro rfl
      simp [hc] at hline
    simpa [hne] using hplain c hc
  · trivial
  · simp only [Bool.and_eq_true, List.all_eq_true, decide_eq_true_eq] at h4
    obtain ⟨hplain, hrun⟩ := h4
    exact ⟨hrun, fun c hc => by simpa using hplain c hc⟩
  · trivial
  · trivial

/-- A text is read back from how it is written. -/
theorem readText_quoted (cs : List Char) {rest : List Char} (hrest : Unmarked rest) :
    readText (quoted cs ++ rest) = some (cs, rest) :=
  readText_wrap (allows_ofText cs) hrest

/-! ## Keys -/

/-- A key is read back from how it is written, if what follows cannot stand in a key. -/
theorem readKey_quotedKey (cs : List Char) {rest : List Char}
    (hrest : ∀ c ∈ rest.head?, isBareChar c = false) :
    readKey (quotedKey cs ++ rest) = some (cs, rest) := by
  unfold quotedKey
  split_ifs with hbare
  · rw [Bool.and_eq_true, List.all_eq_true] at hbare
    obtain ⟨hne, hall⟩ := hbare
    have hnone : rest.takeWhile isBareChar = [] ∧ rest.dropWhile isBareChar = rest := by
      cases rest with
      | nil => exact ⟨rfl, rfl⟩
      | cons c rest => simp [hrest c rfl]
    have htake : (cs ++ rest).takeWhile isBareChar = cs := by
      rw [List.takeWhile_append_of_pos hall, hnone.1, List.append_nil]
    have hdrop : (cs ++ rest).dropWhile isBareChar = rest := by
      rw [List.dropWhile_append_of_pos hall, hnone.2]
    cases cs with
    | nil => exact nomatch hne
    | cons c cs =>
      have hc := hall c List.mem_cons_self
      rw [List.cons_append] at htake hdrop ⊢
      rw [readKey, htake, hdrop]
      · intro _ heq
        obtain ⟨rfl, -⟩ := List.cons.inj heq
        exact nomatch hc
      · intro _ heq
        obtain ⟨rfl, -⟩ := List.cons.inj heq
        exact nomatch hc
  · have hallows := allows_ofText cs
    unfold Style.ofKey
    split
    · next hstyle =>
      rw [hstyle] at hallows
      show readLiteral (cs ++ ['\''] ++ rest) = _
      rw [List.append_assoc, List.singleton_append, readLiteral_append hallows.1 hallows.2]
    · show readBasic (escape false 0 cs ++ ['"'] ++ rest) = _
      rw [List.append_assoc, List.singleton_append, readBasic_escape]

end Toml

end Lineage
