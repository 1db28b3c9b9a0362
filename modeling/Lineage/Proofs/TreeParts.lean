import Lineage.ConfigTree
import Mathlib.Data.List.Basic
import Mathlib.Tactic.SplitIfs

/-!
# Parts of configuration trees

A tree may hold only some of the entries of another one (`ConfigTree.PartOf`). Laid over a tree with
the same keys, it replaces what it holds and leaves the rest (`mergeEntries_eq`). A part
without any entries changes nothing (`merge_nil`).
-/

namespace Lineage

/-! ## Entries -/

section Entries

variable {α : Type} {key : String} {entries : List (String × α)}

theorem lookup_eq_some_iff_of_nodup (h : (entries.map (·.1)).Nodup) {value : α} :
    entries.lookup key = some value ↔ (key, value) ∈ entries := by
  induction entries with
  | nil => simp
  | cons e entries ih =>
    obtain ⟨other, old⟩ := e
    obtain ⟨hnot, hnodup⟩ := List.nodup_cons.1 h
    rw [Dictionary.lookup_cons_eq_ite, List.mem_cons]
    split_ifs with hkey
    · subst hkey
      rw [Option.some.injEq, Prod.mk.injEq, and_iff_right rfl, eq_comm]
      exact (or_iff_left fun hmem => hnot (List.mem_map.2 ⟨(key, value), hmem, rfl⟩)).symm
    · rw [ih hnodup, Prod.mk.injEq]
      exact (or_iff_right fun h => hkey h.1).symm

theorem isSome_lookup_iff : (entries.lookup key).isSome ↔ key ∈ entries.map (·.1) := by
  induction entries with
  | nil => simp
  | cons e entries ih =>
    obtain ⟨other, old⟩ := e
    rw [Dictionary.lookup_cons_eq_ite, List.map_cons, List.mem_cons]
    split_ifs with hkey
    · simp [hkey]
    · rw [ih, or_iff_right hkey]

theorem lookup_eq_none_of_not_mem (h : key ∉ entries.map (·.1)) : entries.lookup key = none := by
  induction entries with
  | nil => rfl
  | cons e entries ih =>
    rw [List.map_cons, List.mem_cons, not_or] at h
    rw [List.lookup_cons, beq_eq_false_iff_ne.2 h.1]
    exact ih h.2

theorem lookup_concat (h : key ∉ entries.map (·.1)) (value : α) :
    (entries ++ [(key, value)]).lookup key = some value := by
  rw [List.lookup_append, lookup_eq_none_of_not_mem h, List.lookup_cons_self]
  rfl

theorem putEntry_of_not_mem (h : key ∉ entries.map (·.1)) (value : α) :
    putEntry key value entries = entries ++ [(key, value)] := by
  induction entries with
  | nil => rfl
  | cons e entries ih =>
    rw [List.map_cons, List.mem_cons, not_or] at h
    rw [putEntry, if_neg h.1, ih h.2]
    rfl

theorem putEntry_concat (h : key ∉ entries.map (·.1)) (old value : α) :
    putEntry key value (entries ++ [(key, old)]) = entries ++ [(key, value)] := by
  induction entries with
  | nil => exact if_pos rfl
  | cons e entries ih =>
    rw [List.map_cons, List.mem_cons, not_or] at h
    rw [List.cons_append, putEntry, if_neg h.1, ih h.2]
    rfl

theorem putEntry_eq_map (hnodup : (entries.map (·.1)).Nodup) (hmem : key ∈ entries.map (·.1))
    (value : α) :
    putEntry key value entries = entries.map fun e => (e.1, if e.1 = key then value else e.2) := by
  induction entries with
  | nil => exact nomatch hmem
  | cons e entries ih =>
    obtain ⟨other, old⟩ := e
    obtain ⟨hnot, hnodup⟩ := List.nodup_cons.1 hnodup
    rw [putEntry, List.map_cons]
    split_ifs with hkey hother hother
    · subst hkey
      have hrest : ∀ e ∈ entries, (e.1, if e.1 = key then value else e.2) = e := by
        intro e he
        rw [if_neg]
        rintro rfl
        exact hnot (List.mem_map.2 ⟨e, he, rfl⟩)
      rw [List.map_congr_left hrest, List.map_id']
    · exact absurd hkey.symm hother
    · exact absurd hother.symm hkey
    · rw [List.map_cons, List.mem_cons, or_iff_right hkey] at hmem
      rw [ih hnodup hmem]

end Entries

namespace ConfigTree

/-- What a tree holds under some keys, one inside the other. -/
def at? (t : ConfigTree) : List String → Option ConfigTree
  | [] => some t
  | key :: keys =>
    match t with
    | table entries => (entries.lookup key).bind (·.at? keys)
    | _ => none

/-- A tree that holds some of the entries of another one, and parts of the tables in it. A value of
another kind is there as a whole. -/
inductive PartOf : ConfigTree → ConfigTree → Prop
  | leaf {value : ConfigTree} (notTable : ∀ entries, value ≠ table entries) : PartOf value value
  | branch {entries whole : List (String × ConfigTree)} (nodup : (entries.map (·.1)).Nodup)
    (keys : entries.map (·.1) ⊆ whole.map (·.1))
    (parts : ∀ key part value, (key, part) ∈ entries → (key, value) ∈ whole → PartOf part value) :
    PartOf (table entries) (table whole)

/-- The entry under a key with what other entries have there laid over it. -/
def overlay (entries : List (String × ConfigTree)) (key : String) (below : ConfigTree) :
    ConfigTree :=
  match entries.lookup key with
  | none => below
  | some value => below.merge value

variable {entries others : List (String × ConfigTree)}

theorem mergeEntries_cons (key : String) (value : ConfigTree)
    (rest others : List (String × ConfigTree)) :
    mergeEntries others ((key, value) :: rest) =
      mergeEntries (putEntry key ((others.lookup key).elim value (·.merge value)) others) rest := by
  rw [mergeEntries]
  cases others.lookup key <;> rfl

theorem merge_nil (entries : List (String × ConfigTree)) :
    (table entries).merge (table []) = table entries := by
  rw [merge, mergeEntries]

theorem overlay_cons_of_ne {key other : String} (h : other ≠ key) (value below : ConfigTree) :
    overlay ((key, value) :: entries) other below = overlay entries other below := by
  unfold overlay
  rw [Dictionary.lookup_cons_eq_ite, if_neg h]

theorem overlay_of_not_mem {key : String} (h : key ∉ entries.map (·.1)) (below : ConfigTree) :
    overlay entries key below = below := by
  unfold overlay
  rw [lookup_eq_none_of_not_mem h]

/-- Entries laid over others that have all of their keys. -/
theorem mergeEntries_eq (hothers : (others.map (·.1)).Nodup) (hnodup : (entries.map (·.1)).Nodup)
    (hkeys : entries.map (·.1) ⊆ others.map (·.1)) :
    mergeEntries others entries = others.map fun e => (e.1, overlay entries e.1 e.2) := by
  induction entries generalizing others with
  | nil =>
    rw [mergeEntries]
    exact (List.map_id' others).symm
  | cons e entries ih =>
    obtain ⟨key, value⟩ := e
    obtain ⟨hnot, hnodup⟩ := List.nodup_cons.1 hnodup
    obtain ⟨hkey, hkeys⟩ := List.cons_subset.1 hkeys
    rw [mergeEntries_cons, putEntry_eq_map hothers hkey]
    have hsame : (others.map fun e => (e.1, if e.1 = key
        then (others.lookup key).elim value (·.merge value) else e.2)).map (·.1) =
          others.map (·.1) := by
      rw [List.map_map]
      rfl
    rw [ih (hsame ▸ hothers) hnodup (hsame ▸ hkeys), List.map_map]
    refine List.map_congr_left fun e he => Prod.ext rfl ?_
    show overlay entries e.1 (if e.1 = key then (others.lookup key).elim value (·.merge value)
      else e.2) = overlay ((key, value) :: entries) e.1 e.2
    by_cases h : e.1 = key
    · have hlookup : others.lookup key = some e.2 :=
        (lookup_eq_some_iff_of_nodup hothers).2 (h ▸ he)
      rw [if_pos h, h, hlookup, overlay_of_not_mem hnot]
      unfold overlay
      rw [List.lookup_cons_self]
      rfl
    · rw [if_neg h, overlay_cons_of_ne h]

/-- Entries laid over others that have none of their keys. -/
theorem mergeEntries_of_disjoint (hnodup : (others.map (·.1) ++ entries.map (·.1)).Nodup) :
    mergeEntries others entries = others ++ entries := by
  induction entries generalizing others with
  | nil => rw [mergeEntries, List.append_nil]
  | cons e entries ih =>
    obtain ⟨key, value⟩ := e
    rw [List.map_cons, List.append_cons] at hnodup
    have hnot : key ∉ others.map (·.1) := fun hmem =>
      (List.nodup_append.1 (List.nodup_append.1 hnodup).1).2.2 key hmem key
        List.mem_cons_self rfl
    have hnext := ih (show ((others ++ [(key, value)]).map (·.1) ++ entries.map (·.1)).Nodup by
      rw [List.map_append]
      exact hnodup)
    rw [mergeEntries_cons, lookup_eq_none_of_not_mem hnot, putEntry_of_not_mem hnot]
    exact hnext.trans (List.append_cons others (key, value) entries).symm

/-! ## What a part holds -/

theorem at?_table (entries : List (String × ConfigTree)) (key : String) (keys : List String) :
    (table entries).at? (key :: keys) = (entries.lookup key).bind (·.at? keys) := rfl

theorem merge_of_not_table {value : ConfigTree} (h : ∀ entries, value ≠ table entries)
    (below : ConfigTree) : below.merge value = value := by
  cases value with
  | table entries => exact absurd rfl (h entries)
  | _ => rw [merge]; exact nofun

theorem PartOf.eq_of_not_table {part value : ConfigTree} (h : PartOf part value)
    (hvalue : ∀ entries, value ≠ table entries) : part = value := by
  cases h with
  | leaf => rfl
  | branch => exact absurd rfl (hvalue _)

theorem PartOf.of_lookup {whole : List (String × ConfigTree)}
    (h : PartOf (table entries) (table whole)) {key : String} {part value : ConfigTree}
    (hpart : entries.lookup key = some part) (hvalue : (key, value) ∈ whole) :
    PartOf part value := by
  cases h with
  | leaf hnot => exact absurd rfl (hnot _)
  | branch _ _ parts => exact parts key part value (Dictionary.mem_of_lookup_eq_some hpart) hvalue

theorem PartOf.self_table (hnodup : (entries.map (·.1)).Nodup)
    (h : ∀ e ∈ entries, PartOf e.2 e.2) :
    PartOf (table entries) (table entries) := by
  refine .branch hnodup (List.Subset.refl _) fun key part value hpart hvalue => ?_
  have hlookup := (lookup_eq_some_iff_of_nodup hnodup).2 hpart
  rw [(lookup_eq_some_iff_of_nodup hnodup).2 hvalue] at hlookup
  obtain rfl := Option.some.inj hlookup
  exact h _ hpart

end ConfigTree

end Lineage
