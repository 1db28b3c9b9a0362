/-!
# Dictionaries

Values under texts, kept in ascending order of the texts, so that equal dictionaries are the same
value. The main statements say what `get?` finds after `insert`, and that `get?` tells dictionaries
apart.
-/

namespace Lineage

/-- Values under texts, in ascending order of the texts. -/
structure Dictionary (α : Type) where
  entries : List (String × α) := []
  ascending : entries.Pairwise (fun a b => a.1 < b.1) := by exact List.Pairwise.nil
  deriving DecidableEq, Repr

namespace Dictionary

variable {α : Type}

def empty : Dictionary α := ⟨[], List.Pairwise.nil⟩

instance : Inhabited (Dictionary α) := ⟨empty⟩

/-- The value under a text. -/
def get? (d : Dictionary α) (key : String) : Option α :=
  d.entries.lookup key

/-- Puts a value in its place in an ascending list. -/
def insertEntry (key : String) (value : α) : List (String × α) → List (String × α)
  | [] => [(key, value)]
  | (other, old) :: rest =>
    if key = other then (key, value) :: rest
    else if key < other then (key, value) :: (other, old) :: rest
    else (other, old) :: insertEntry key value rest

theorem fst_of_mem_insertEntry {key : String} {value : α} {entries : List (String × α)}
    {e : String × α} (h : e ∈ insertEntry key value entries) : e.1 = key ∨ e ∈ entries := by
  induction entries with
  | nil => simp_all [insertEntry]
  | cons other rest ih =>
    rw [insertEntry] at h
    split at h
    · rcases List.mem_cons.1 h with rfl | h
      · exact .inl rfl
      · exact .inr (List.mem_cons_of_mem _ h)
    · split at h
      · rcases List.mem_cons.1 h with rfl | h
        · exact .inl rfl
        · exact .inr h
      · rcases List.mem_cons.1 h with rfl | h
        · exact .inr (List.mem_cons_self ..)
        · exact (ih h).imp_right (List.mem_cons_of_mem _)

theorem pairwise_insertEntry (key : String) (value : α) {entries : List (String × α)}
    (h : entries.Pairwise fun a b => a.1 < b.1) :
    (insertEntry key value entries).Pairwise fun a b => a.1 < b.1 := by
  induction entries with
  | nil => exact List.pairwise_singleton _ _
  | cons other rest ih =>
    obtain ⟨hall, hrest⟩ := List.pairwise_cons.1 h
    rw [insertEntry]
    split
    · next heq => exact List.pairwise_cons.2 ⟨heq ▸ hall, hrest⟩
    · next hne =>
      split
      · next hlt =>
        refine List.pairwise_cons.2 ⟨fun e he => ?_, h⟩
        rcases List.mem_cons.1 he with rfl | he
        · exact hlt
        · exact String.lt_trans hlt (hall e he)
      · next hnot =>
        refine List.pairwise_cons.2 ⟨fun e he => ?_, ih hrest⟩
        rcases fst_of_mem_insertEntry he with hk | he
        · exact hk ▸ Std.lt_of_le_of_ne (String.not_lt.1 hnot) (Ne.symm hne)
        · exact hall e he

/-- The dictionary with a value under a text, instead of the one that was there. -/
def insert (d : Dictionary α) (key : String) (value : α) : Dictionary α :=
  ⟨insertEntry key value d.entries, pairwise_insertEntry key value d.ascending⟩

/-- The dictionary of a list. Of two values under the same text the later one counts. -/
def ofList (entries : List (String × α)) : Dictionary α :=
  entries.foldl (fun d (key, value) => d.insert key value) empty

@[simp]
theorem get?_empty (key : String) : (empty : Dictionary α).get? key = none := rfl

theorem lookup_cons_eq_ite (key other : String) (value : α) (entries : List (String × α)) :
    ((key, value) :: entries).lookup other =
      if other = key then some value else entries.lookup other := by
  rw [List.lookup_cons]
  split <;> simp_all

theorem lookup_insertEntry (key other : String) (value : α) (entries : List (String × α)) :
    (insertEntry key value entries).lookup other =
      if other = key then some value else entries.lookup other := by
  induction entries with
  | nil => rw [insertEntry, lookup_cons_eq_ite]
  | cons e rest ih =>
    obtain ⟨k, v⟩ := e
    rw [insertEntry, lookup_cons_eq_ite]
    split
    · next h =>
      subst h
      rw [lookup_cons_eq_ite]
      split
      · rfl
      · rfl
    · next hne =>
      split
      · rw [lookup_cons_eq_ite, lookup_cons_eq_ite]
      · rw [lookup_cons_eq_ite, ih]
        by_cases ho : other = k
        · rw [if_pos ho, if_pos ho, if_neg fun h => hne (h.symm.trans ho)]
        · rw [if_neg ho, if_neg ho]

@[simp]
theorem get?_insert (d : Dictionary α) (key other : String) (value : α) :
    (d.insert key value).get? other = if other = key then some value else d.get? other :=
  lookup_insertEntry key other value d.entries

/-- What is found after a list of values is put in, each text having only one value there. -/
theorem get?_foldl_insert {entries : List (String × α)} {d : Dictionary α}
    (hsame : ∀ key v w, (key, v) ∈ entries → (key, w) ∈ entries → v = w) {key : String}
    {value : α} :
    (entries.foldl (fun d (key, value) => d.insert key value) d).get? key = some value ↔
      (key, value) ∈ entries ∨ (∀ v, (key, v) ∉ entries) ∧ d.get? key = some value := by
  induction entries generalizing d with
  | nil => simp
  | cons entry rest ih =>
    obtain ⟨k, v⟩ := entry
    have hrest : ∀ key v w, (key, v) ∈ rest → (key, w) ∈ rest → v = w := fun key v w hv hw =>
      hsame key v w (List.mem_cons_of_mem _ hv) (List.mem_cons_of_mem _ hw)
    rw [List.foldl_cons, ih hrest, get?_insert]
    by_cases hkey : key = k
    · subst hkey
      have hfirst : ∀ w, (key, w) ∈ rest → w = v := fun w hw =>
        hsame key w v (List.mem_cons_of_mem _ hw) (List.mem_cons_self ..)
      grind
    · simp [hkey]

theorem get?_ofList_eq_some_iff {entries : List (String × α)}
    (hsame : ∀ key v w, (key, v) ∈ entries → (key, w) ∈ entries → v = w) {key : String}
    {value : α} : (ofList entries).get? key = some value ↔ (key, value) ∈ entries := by
  unfold ofList
  rw [get?_foldl_insert hsame]
  simp

theorem mem_of_lookup_eq_some {key : String} {value : α} {entries : List (String × α)}
    (h : entries.lookup key = some value) : (key, value) ∈ entries := by
  induction entries with
  | nil => simp at h
  | cons e rest ih =>
    rw [lookup_cons_eq_ite] at h
    split at h
    · next heq =>
      obtain rfl := Option.some.inj h
      exact heq ▸ List.mem_cons_self ..
    · exact List.mem_cons_of_mem _ (ih h)

theorem lookup_eq_none_of_lt {key : String} {entries : List (String × α)}
    (h : ∀ e ∈ entries, key < e.1) : entries.lookup key = none := by
  cases hl : entries.lookup key with
  | none => rfl
  | some value => exact absurd (h _ (mem_of_lookup_eq_some hl)) (String.lt_irrefl _)

theorem eq_of_lookup_eq {xs ys : List (String × α)} (hx : xs.Pairwise fun a b => a.1 < b.1)
    (hy : ys.Pairwise fun a b => a.1 < b.1) (h : ∀ key, xs.lookup key = ys.lookup key) :
    xs = ys := by
  induction xs generalizing ys with
  | nil =>
    cases ys with
    | nil => rfl
    | cons y ys =>
      obtain ⟨l, w⟩ := y
      simpa [lookup_cons_eq_ite] using h l
  | cons x xs ih =>
    obtain ⟨hxall, hxs⟩ := List.pairwise_cons.1 hx
    cases ys with
    | nil =>
      obtain ⟨k, v⟩ := x
      simpa [lookup_cons_eq_ite] using h k
    | cons y ys =>
      obtain ⟨hyall, hys⟩ := List.pairwise_cons.1 hy
      obtain ⟨k, v⟩ := x
      obtain ⟨l, w⟩ := y
      simp only [lookup_cons_eq_ite] at h
      obtain rfl : k = l := by
        refine Decidable.byContradiction fun hne => ?_
        have h1 := h k
        have h2 := h l
        rw [if_pos rfl, if_neg hne] at h1
        rw [if_pos rfl, if_neg (Ne.symm hne)] at h2
        exact String.lt_irrefl k (String.lt_trans (hxall _ (mem_of_lookup_eq_some h2))
          (hyall _ (mem_of_lookup_eq_some h1.symm)))
      obtain rfl : v = w := by simpa using h k
      obtain rfl : xs = ys := by
        refine ih hxs hys fun key => ?_
        by_cases hk : key = k
        · rw [lookup_eq_none_of_lt fun e he => hk ▸ hxall e he,
            lookup_eq_none_of_lt fun e he => hk ▸ hyall e he]
        · simpa [hk] using h key
      rfl

/-- Dictionaries in which the same is found are equal. -/
theorem ext_get? {d e : Dictionary α} (h : ∀ key, d.get? key = e.get? key) : d = e := by
  obtain ⟨xs, hx⟩ := d
  obtain ⟨ys, hy⟩ := e
  obtain rfl : xs = ys := eq_of_lookup_eq hx hy h
  rfl

end Dictionary

end Lineage
