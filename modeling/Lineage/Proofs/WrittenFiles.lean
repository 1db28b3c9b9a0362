import Lineage.Workspace
import Lineage.Proofs.Fallible
import Mathlib.Data.List.Basic
import Mathlib.Tactic.SplitIfs

/-!
# Files that are written

To write a file, folders are made and the file is put in its place, and no folder is taken away
(`Files.Grows`). A path that could be followed before leads to the same place afterwards
(`Files.Grows.walk`), so the file is found where it was written (`Files.look_writeWithin`). Whether
it can be written does not depend on what is in it (`Files.writeWithin_result`).
-/

namespace Lineage

/-! ## Pieces -/

theorem splitChars_ne_nil (sep : Char) (cs : List Char) : splitChars sep cs ≠ [] := by
  induction cs with
  | nil => exact List.cons_ne_nil _ _
  | cons c cs ih =>
    rw [splitChars]
    split
    · exact List.cons_ne_nil _ _
    · split <;> exact List.cons_ne_nil _ _

theorem splitChars_append (sep : Char) (xs ys : List Char) :
    splitChars sep (xs ++ sep :: ys) = splitChars sep xs ++ splitChars sep ys := by
  induction xs with
  | nil => exact if_pos rfl
  | cons x xs ih =>
    rw [List.cons_append, splitChars, splitChars]
    split
    · rw [ih, List.cons_append]
    · rw [ih]
      cases h : splitChars sep xs with
      | nil => exact absurd h (splitChars_ne_nil sep xs)
      | cons piece pieces => rfl

theorem splitAll_append (path rest : Path) :
    splitAll '/' (path ++ "/" ++ rest) = splitAll '/' path ++ splitAll '/' rest := by
  have hchars : (path ++ "/" ++ rest).toList = path.toList ++ '/' :: rest.toList := by
    rw [String.toList_append, String.toList_append, List.append_assoc]
    rfl
  unfold splitAll
  rw [hchars, splitChars_append, List.map_append]

/-- The last piece is empty only if nothing stands after the last separator. -/
theorem getLast?_of_splitChars {sep : Char} {cs : List Char}
    (h : (splitChars sep cs).getLast? = some []) : cs = [] ∨ cs.getLast? = some sep := by
  induction cs with
  | nil => exact .inl rfl
  | cons c cs ih =>
    refine .inr ?_
    have hcons : cs.getLast? = some sep → (c :: cs).getLast? = some sep := fun hlast => by
      rw [List.getLast?_cons, hlast, Option.getD_some]
    rw [splitChars] at h
    split_ifs at h with hsep
    · cases hpieces : splitChars sep cs with
      | nil => exact absurd hpieces (splitChars_ne_nil sep cs)
      | cons piece pieces =>
        rw [hpieces, List.getLast?_cons_cons] at h
        rcases ih (hpieces ▸ h) with rfl | hlast
        · rw [hsep]
          rfl
        · exact hcons hlast
    · cases hpieces : splitChars sep cs with
      | nil => exact absurd hpieces (splitChars_ne_nil sep cs)
      | cons piece pieces =>
        simp only [hpieces] at h
        cases pieces with
        | nil => simp at h
        | cons next pieces =>
          rw [List.getLast?_cons_cons] at h
          rw [hpieces, List.getLast?_cons_cons] at ih
          rcases ih h with rfl | hlast
          · simp [splitChars] at hpieces
          · exact hcons hlast

namespace Files

variable {files after : Files} {place found folder : Place} {path : Path}

/-! ## Folders stay -/

/-- All folders are still there. -/
def Grows (files after : Files) : Prop :=
  ∀ place, files.entry? place = some .folder → after.entry? place = some .folder

theorem Grows.refl (files : Files) : files.Grows files := fun _ h => h

theorem Grows.trans {last : Files} (h : files.Grows after) (hlast : after.Grows last) :
    files.Grows last := fun place hplace => hlast place (h place hplace)

theorem lookup_filter_ne {entries : List (Place × FileEntry)} {other : Place} (h : other ≠ place) :
    (entries.filter (·.1 ≠ place)).lookup other = entries.lookup other := by
  induction entries with
  | nil => rfl
  | cons e entries ih =>
    by_cases he : e.1 = place
    · have hne : (other == e.1) = false := beq_eq_false_iff_ne.2 (he ▸ h)
      rw [List.filter_cons_of_neg (by simpa using he), ih, List.lookup_cons, hne]
    · rw [List.filter_cons_of_pos (by simpa using he), List.lookup_cons, List.lookup_cons, ih]

theorem entry?_put_of_ne {other : Place} (h : other ≠ place) (entry : FileEntry) :
    entry? (files.put place entry) other = files.entry? other := by
  have hne : (other == place) = false := beq_eq_false_iff_ne.2 h
  unfold entry? put
  rw [List.lookup_cons, hne, lookup_filter_ne h]

theorem entry?_put_self (h : place ≠ []) (entry : FileEntry) :
    entry? (files.put place entry) place = some entry := by
  unfold entry? put
  rw [List.isEmpty_eq_false_iff.2 h, List.lookup_cons_self]
  rfl

theorem grows_put {entry : FileEntry}
    (h : files.entry? place = some .folder → entry = .folder) :
    files.Grows (files.put place entry) := by
  intro other hother
  by_cases hplace : other = place
  · subst hplace
    by_cases hroot : other = []
    · subst hroot
      rfl
    · rw [entry?_put_self hroot, h hother]
  · rw [entry?_put_of_ne hplace, hother]

/-! ## Following names -/

theorem of_walk_cons {name : String} {names : List String}
    (h : files.walk place (name :: names) = .ok found) :
    files.entry? place = some .folder ∧ name.utf8ByteSize ≤ nameLimit ∧
      files.walk (stepTo place name) names = .ok found := by
  rw [walk] at h
  split at h
  · exact nomatch h
  · exact nomatch h
  · next hplace =>
    split_ifs at h with hname
    exact ⟨hplace, Nat.le_of_not_lt hname, h⟩

theorem walk_cons {name : String} (hplace : files.entry? place = some .folder)
    (hname : name.utf8ByteSize ≤ nameLimit) (names : List String) :
    files.walk place (name :: names) = files.walk (stepTo place name) names := by
  rw [walk, hplace]
  exact if_neg (Nat.not_lt.2 hname)

theorem walk_append (names rest : List String) :
    files.walk place (names ++ rest) =
      (files.walk place names).bind fun found => files.walk found rest := by
  induction names generalizing place with
  | nil => rfl
  | cons name names ih =>
    rw [List.cons_append, walk, walk]
    split
    · rfl
    · rfl
    · split_ifs
      · rfl
      · exact ih

theorem folder_of_walk {names : List String} (hne : names ≠ [])
    (h : files.walk place names = .ok found) : files.entry? place = some .folder := by
  cases names with
  | nil => exact absurd rfl hne
  | cons name names => exact (of_walk_cons h).1

theorem Grows.walk (h : files.Grows after) {names : List String}
    (hwalk : files.walk place names = .ok found) : after.walk place names = .ok found := by
  induction names generalizing place with
  | nil => exact hwalk
  | cons name names ih =>
    obtain ⟨hplace, hname, hrest⟩ := of_walk_cons hwalk
    rw [walk_cons (h place hplace) hname]
    exact ih hrest

/-- An empty name at the end asks for a folder. -/
theorem walk_concat_empty {names : List String} :
    files.walk place (names ++ [""]) = .ok found ↔
      files.walk place names = .ok found ∧ files.entry? found = some .folder := by
  rw [walk_append]
  cases hwalk : files.walk place names with
  | error e => simp [Except.bind]
  | ok outer =>
    constructor
    · intro h
      obtain ⟨hfolder, -, hfound⟩ := of_walk_cons h
      have heq : outer = found := Except.ok.inj hfound
      exact ⟨congrArg Except.ok heq, heq ▸ hfolder⟩
    · rintro ⟨heq, hfolder⟩
      obtain rfl : outer = found := Except.ok.inj heq
      exact walk_cons hfolder (Nat.zero_le _) []

/-- Empty names before that lead nowhere. -/
theorem walk_of_walk_filter {names : List String}
    (h : files.walk place (names.filter (· ≠ "") ++ [""]) = .ok found) :
    files.walk place (names ++ [""]) = .ok found := by
  induction names generalizing place with
  | nil => exact h
  | cons name names ih =>
    by_cases hname : name = ""
    · subst hname
      rw [List.filter_cons_of_neg (by simp)] at h
      have hplace := folder_of_walk (List.concat_ne_nil "" _) h
      rw [List.cons_append, walk_cons hplace (Nat.zero_le _)]
      exact ih h
    · rw [List.filter_cons_of_pos (by simpa using hname), List.cons_append] at h
      obtain ⟨hplace, hlength, hrest⟩ := of_walk_cons h
      rw [List.cons_append, walk_cons hplace hlength]
      exact ih hrest

theorem walk_points (h : files.entry? place = some .folder) (n : Nat) (rest : List String) :
    files.walk place (List.replicate n "." ++ rest) = files.walk place rest := by
  induction n with
  | zero => rfl
  | succ n ih =>
    rw [List.replicate_succ, List.cons_append, walk_cons h (by decide)]
    exact ih

/-! ## Making folders -/

theorem checkPath_eq_ok : checkPath path = .ok () ↔
    '\x00' ∉ path.toList ∧ path.utf8ByteSize < pathLimit := by
  unfold checkPath
  split_ifs with hnul hsize
  · simp [List.contains_iff_mem.1 hnul]
  · simp [Nat.not_lt.2 hsize]
  · simp [mt List.contains_iff_mem.2 hnul, Nat.not_le.1 hsize]

theorem origin_eq_ok : origin folder path = .ok place ↔ checkPath path = .ok () ∧ path ≠ "" ∧
    (if Path.isAbsolute path then [] else folder) = place := by
  constructor
  · intro h
    obtain ⟨_, hcheck, h⟩ := bind_eq_ok_iff.1 h
    by_cases hpath : path = ""
    · rw [if_pos hpath] at h
      exact nomatch h
    · rw [if_neg hpath] at h
      exact ⟨hcheck, hpath, Except.ok.inj h⟩
  · rintro ⟨hcheck, hpath, hplace⟩
    refine bind_eq_ok_iff.2 ⟨(), hcheck, ?_⟩
    rw [if_neg hpath]
    exact congrArg Except.ok hplace

theorem isFile_of_long (h : pathLimit ≤ path.utf8ByteSize) : files.isFile folder path = false := by
  have hlook : ∀ entry, files.look folder path ≠ .ok entry := by
    intro entry hentry
    obtain ⟨place, hplace, -⟩ := bind_eq_ok_iff.1 hentry
    obtain ⟨start, hstart, -⟩ := bind_eq_ok_iff.1 hplace
    have hcheck := checkPath_eq_ok.1 (origin_eq_ok.1 hstart).1
    omega
  unfold isFile
  split
  · next bytes heq => exact absurd heq (hlook _)
  · rfl

/-- A new place is in a folder, under the last name of the path. -/
theorem newPlace?_eq_some_iff : files.newPlace? folder path = .ok (some place) ↔
    ∃ start outer name, origin folder path = .ok start ∧
      files.walk start ((Path.names path).dropLast ++ [""]) = .ok outer ∧
      (Path.names path).getLast? = some name ∧ name ≠ "." ∧ name ≠ ".." ∧
      place = outer ++ [name] := by
  constructor
  · intro h
    obtain ⟨outer, houter, h⟩ := bind_eq_ok_iff.1 h
    obtain ⟨start, hstart, hwalk⟩ := bind_eq_ok_iff.1 houter
    split at h
    · exact nomatch h
    · exact nomatch h
    · exact nomatch h
    · next name hdot hdots hname =>
      exact ⟨start, outer, name, hstart, hwalk, hname, hdot, hdots,
        (Option.some.inj (Except.ok.inj h)).symm⟩
  · rintro ⟨start, outer, name, hstart, hwalk, hname, hdot, hdots, rfl⟩
    refine bind_eq_ok_iff.2 ⟨outer, bind_eq_ok_iff.2 ⟨start, hstart, hwalk⟩, ?_⟩
    rw [hname]
    split
    · next hnone => exact nomatch hnone
    · next heq => exact absurd (Option.some.inj heq) hdot
    · next heq => exact absurd (Option.some.inj heq) hdots
    · next heq =>
      obtain rfl := Option.some.inj heq
      rfl

theorem length_of_checkName {name : String} (h : checkName (place ++ [name]) = .ok ()) :
    name.utf8ByteSize ≤ nameLimit := by
  unfold checkName at h
  rw [List.getLast?_concat] at h
  split_ifs at h with hname
  simpa using hname

/-- The last name of a path that does not end in a slash is its last piece. -/
theorem pieces_of_names {name : String} (hname : (Path.names path).getLast? = some name)
    (hslash : path.toList.getLast? ≠ some '/') :
    ∃ before, splitAll '/' path = before ++ [name] ∧
      (Path.names path).dropLast = before.filter (· ≠ "") := by
  unfold Path.names at hname ⊢
  rcases List.eq_nil_or_concat' (splitAll '/' path) with hnil | ⟨before, last, hpieces⟩
  · rw [hnil] at hname
    exact nomatch hname
  · have hlast : last ≠ "" := by
      rintro rfl
      have hsplit : (splitChars '/' path.toList).getLast? = some [] := by
        have hend := congrArg List.getLast? hpieces
        unfold splitAll at hend
        rw [List.getLast?_map, List.getLast?_concat, Option.map_eq_some_iff] at hend
        obtain ⟨piece, hpiece, hempty⟩ := hend
        rw [hpiece, String.ofList_eq_empty_iff.1 hempty]
      rcases getLast?_of_splitChars hsplit with hnil | hend
      · rw [splitAll, hnil] at hname
        exact nomatch hname
      · exact hslash hend
    rw [hpieces, List.filter_append, List.filter_cons_of_pos (by simpa using hlast),
      List.filter_nil] at hname ⊢
    rw [List.getLast?_concat, Option.some.injEq] at hname
    exact ⟨before, hname ▸ rfl, List.dropLast_concat⟩

/-- A path that does not end in a slash leads to the place that it names anew. -/
theorem locate_of_newPlace? (h : files.newPlace? folder path = .ok (some place))
    (hslash : path.toList.getLast? ≠ some '/') (hlength : checkName place = .ok ()) :
    files.locate folder path = .ok place := by
  obtain ⟨start, outer, name, hstart, hwalk, hname, hdot, hdots, rfl⟩ := newPlace?_eq_some_iff.1 h
  obtain ⟨before, hpieces, hbefore⟩ := pieces_of_names hname hslash
  obtain ⟨houter, hfolder⟩ := walk_concat_empty.1 (walk_of_walk_filter (hbefore ▸ hwalk))
  have hempty : name ≠ "" := by
    have hmem := List.mem_of_getLast? hname
    simpa using (List.mem_filter.1 hmem).2
  have hplain : stepTo outer name = outer ++ [name] := by
    unfold stepTo
    rw [if_neg (not_or.2 ⟨hempty, hdot⟩), if_neg hdots]
  refine bind_eq_ok_iff.2 ⟨start, hstart, ?_⟩
  rw [hpieces, walk_append, houter]
  exact (walk_cons hfolder (length_of_checkName hlength) []).trans (congrArg Except.ok hplain)

/-- A file is put in a new place under a name that is not too long, unless a folder is there. -/
theorem write_eq_ok_iff {bytes : ByteArray} : files.write folder path bytes = .ok after ↔
    ∃ place, files.newPlace? folder path = .ok (some place) ∧
      path.toList.getLast? ≠ some '/' ∧ checkName place = .ok () ∧
      files.entry? place ≠ some .folder ∧ after = files.put place (.file bytes) := by
  constructor
  · intro h
    obtain ⟨place?, hplace, h⟩ := bind_eq_ok_iff.1 h
    cases place? with
    | none => exact nomatch h
    | some place =>
      refine ⟨place, hplace, ?_⟩
      split_ifs at h with hslash
      · exact nomatch h
      · obtain ⟨_, hname, h⟩ := bind_eq_ok_iff.1 h
        split at h
        · exact nomatch h
        · next hfolder => exact ⟨hslash, hname, hfolder, (Except.ok.inj h).symm⟩
  · rintro ⟨place, hplace, hslash, hname, hfolder, rfl⟩
    refine bind_eq_ok_iff.2 ⟨some place, hplace, ?_⟩
    simp only [if_neg hslash]
    exact bind_eq_ok_iff.2 ⟨(), hname, rfl⟩

theorem makeFolder_eq_ok (h : files.makeFolder folder path = .ok after) :
    ∃ place, after = files.put place .folder := by
  obtain ⟨place?, hplace, h⟩ := bind_eq_ok_iff.1 h
  cases place? with
  | none => exact nomatch h
  | some place =>
    obtain ⟨_, hname, h⟩ := bind_eq_ok_iff.1 h
    split_ifs at h
    · exact nomatch h
    · exact ⟨place, (Except.ok.inj h).symm⟩

/-! ## Changes -/

theorem grows_ensureFolder (h : files.ensureFolder folder path = .ok after) :
    files.Grows after := by
  unfold ensureFolder at h
  split at h
  · split_ifs at h
    exact Except.ok.inj h ▸ Grows.refl files
  · obtain ⟨place, rfl⟩ := makeFolder_eq_ok h
    exact grows_put fun _ => rfl

theorem grows_attempt {change : Except FileError Files}
    (h : ∀ after, change = .ok after → files.Grows after) :
    files.Grows (files.attempt change).files := by
  cases change with
  | ok changed => exact h changed rfl
  | error e => exact Grows.refl files

theorem Grows.andThen {first : Attempt} {next : Files → Attempt} (h : files.Grows first.files)
    (hnext : first.files.Grows (next first.files).files) :
    files.Grows (first.andThen next).files := by
  unfold Attempt.andThen
  split
  · exact h.trans hnext
  · exact h

theorem grows_makeAlong (paths : List Path) : files.Grows (files.makeAlong folder paths).files := by
  induction paths with
  | nil => exact Grows.refl files
  | cons path around ih =>
    unfold makeAlong
    split
    · exact ih.andThen (grows_attempt fun _ => grows_ensureFolder)
    · exact grows_attempt fun _ => grows_ensureFolder

theorem grows_makeFolders (path : Path) : files.Grows (files.makeFolders folder path).files := by
  unfold makeFolders
  split
  · exact Grows.refl files
  · exact grows_makeAlong _

theorem grows_write {bytes : ByteArray} (h : files.write folder path bytes = .ok after) :
    files.Grows after := by
  obtain ⟨place, -, -, -, hplace, rfl⟩ := write_eq_ok_iff.1 h
  exact grows_put fun h => absurd h hplace

/-- No folder is gone, even if the file could not be written. -/
theorem grows_writeWithin (files : Files) (folder : Place) (path : Path) (bytes : ByteArray) :
    files.Grows (files.writeWithin folder path bytes).files :=
  (grows_makeFolders _).andThen (grows_attempt fun _ => grows_write)

/-! ## Reading back -/

theorem Grows.locate (h : files.Grows after) (hplace : files.locate folder path = .ok place) :
    after.locate folder path = .ok place := by
  obtain ⟨start, hstart, hwalk⟩ := bind_eq_ok_iff.1 hplace
  exact bind_eq_ok_iff.2 ⟨start, hstart, h.walk hwalk⟩

theorem locate_write {bytes : ByteArray} (h : files.write folder path bytes = .ok after) :
    ∃ place, after.locate folder path = .ok place ∧ after.entry? place = some (.file bytes) := by
  -- the file takes the place of no folder, so the path can still be followed
  have hgrows := grows_write h
  obtain ⟨place, hnew, hslash, hname, hfolder, rfl⟩ := write_eq_ok_iff.1 h
  have hplace : place ≠ [] := by
    rintro rfl
    exact hfolder rfl
  exact ⟨place, hgrows.locate (locate_of_newPlace? hnew hslash hname), entry?_put_self hplace _⟩

theorem attempt_of_ok {change : Except FileError Files}
    (h : (files.attempt change).result = .ok ()) : change = .ok (files.attempt change).files := by
  cases change with
  | ok changed => rfl
  | error e => exact nomatch h

theorem Attempt.andThen_of_ok {first : Attempt} {next : Files → Attempt}
    (h : (first.andThen next).result = .ok ()) : first.andThen next = next first.files := by
  unfold andThen at h ⊢
  split at h
  · rfl
  · next hresult => exact nomatch hresult.symm.trans h

theorem locate_writeWithin {bytes : ByteArray}
    (h : (files.writeWithin folder path bytes).result = .ok ()) :
    ∃ place, (files.writeWithin folder path bytes).files.locate folder path = .ok place ∧
      entry? (files.writeWithin folder path bytes).files place = some (.file bytes) := by
  unfold writeWithin at h ⊢
  have hnext := Attempt.andThen_of_ok h
  rw [hnext] at h ⊢
  exact locate_write (attempt_of_ok h)

theorem write_result (files : Files) (folder : Place) (path : Path) (bytes others : ByteArray) :
    (files.attempt (files.write folder path bytes)).result =
      (files.attempt (files.write folder path others)).result := by
  unfold write
  cases files.newPlace? folder path with
  | error e => rfl
  | ok place? =>
    cases place? with
    | none => rfl
    | some place =>
      by_cases hslash : path.toList.getLast? = some '/'
      · simp only [hslash, if_true, Bind.bind, Except.bind]
        rfl
      · simp only [hslash, if_false, Bind.bind, Except.bind]
        cases checkName place with
        | error e => rfl
        | ok _ =>
          simp only
          split <;> rfl

/-- Whether a file can be written does not depend on what is in it. -/
theorem writeWithin_result (files : Files) (folder : Place) (path : Path)
    (bytes others : ByteArray) :
    (files.writeWithin folder path bytes).result =
      (files.writeWithin folder path others).result := by
  unfold writeWithin Attempt.andThen
  split
  · exact write_result _ folder path bytes others
  · rfl

/-! ## Seen from the root -/

theorem mem_toList_join {base : Path} {c : Char} (h : c ∈ (Path.join base path).toList) :
    c ∈ base.toList ∨ c = '/' ∨ c ∈ path.toList := by
  unfold Path.join at h
  split_ifs at h
  · exact .inr (.inr h)
  · rw [String.toList_append, List.mem_append] at h
    exact h.imp_right .inr
  · rw [String.toList_append, String.toList_append, List.mem_append, List.mem_append] at h
    rcases h with (h | h) | h
    · exact .inl h
    · exact .inr (.inl (List.mem_singleton.1 h))
    · exact .inr (.inr h)

theorem join_ne_empty {base : Path} (h : path ≠ "") : Path.join base path ≠ "" := by
  unfold Path.join
  split
  · exact h
  · split <;> simp [h]

/-- A relative path is followed from the folder that the path before it leads to. -/
theorem walk_join {base : Path} (hbase : base ≠ "") (habsolute : Path.isAbsolute path = false)
    (hfolder : files.walk [] (splitAll '/' base) = .ok folder) :
    files.walk [] (splitAll '/' (Path.join base path)) =
      files.walk folder (splitAll '/' path) := by
  have hslashed : ∀ before : Path, files.walk [] (splitAll '/' before) = .ok folder →
      files.walk [] (splitAll '/' (before ++ "/" ++ path)) =
        files.walk folder (splitAll '/' path) := by
    intro before hbefore
    rw [splitAll_append, walk_append, hbefore]
    rfl
  unfold Path.join
  rw [habsolute, decide_eq_false hbase]
  split_ifs with hnot hslash
  · exact nomatch hnot
  · -- the slash at the end leaves an empty last piece, which leads nowhere
    obtain ⟨before, hbefore⟩ := List.getLast?_eq_some_iff.1 hslash
    obtain rfl : base = String.ofList before ++ "/" := by
      rw [← String.ofList_toList (s := base), hbefore, String.ofList_append]
    have hsplit := splitAll_append (String.ofList before) ""
    rw [String.append_empty] at hsplit
    rw [hsplit] at hfolder
    exact hslashed _ (walk_concat_empty.1 hfolder).1
  · exact hslashed base hfolder

/-- A path leads from the root, put behind the path of the folder, to where it leads from there. -/
theorem locate_join (hfolder : files.locate [] folder.path = .ok folder)
    (hplace : files.locate folder path = .ok place)
    (hlength : (Path.join folder.path path).utf8ByteSize < pathLimit) :
    files.locate [] (Path.join folder.path path) = .ok place := by
  obtain ⟨start, hstart, hwalk⟩ := bind_eq_ok_iff.1 hplace
  obtain ⟨root, hroot, hbase⟩ := bind_eq_ok_iff.1 hfolder
  obtain ⟨hcheck, hpath, rfl⟩ := origin_eq_ok.1 hstart
  obtain ⟨hcheckBase, hpathBase, rfl⟩ := origin_eq_ok.1 hroot
  rw [ite_self] at hbase
  have hjoined : checkPath (Path.join folder.path path) = .ok () := by
    refine checkPath_eq_ok.2 ⟨fun hnul => ?_, hlength⟩
    rcases mem_toList_join hnul with h | h | h
    · exact (checkPath_eq_ok.1 hcheckBase).1 h
    · exact nomatch h
    · exact (checkPath_eq_ok.1 hcheck).1 h
  refine bind_eq_ok_iff.2 ⟨[], origin_eq_ok.2 ⟨hjoined, join_ne_empty hpath, ite_self _⟩, ?_⟩
  cases habsolute : Path.isAbsolute path with
  | true =>
    rw [habsolute, if_pos rfl] at hwalk
    unfold Path.join
    rwa [habsolute, Bool.true_or, if_pos rfl]
  | false =>
    rw [habsolute, if_neg Bool.false_ne_true] at hwalk
    rw [walk_join hpathBase habsolute hbase]
    exact hwalk

end Files

end Lineage
