import Mathlib.Data.List.Induction
import Mathlib.Data.List.Nodup

/-!
# First occurrences

`List.eraseDups` keeps each element of a list at its first place. What is kept is not repeated
(`nodup_eraseDups`), repetitions in the first part of a list make no difference
(`eraseDups_append_left`), and elements may be left out before or after (`eraseDups_filter`).
-/

namespace Lineage

variable {α : Type} [BEq α] [LawfulBEq α]

/-! ## One more element -/

theorem eraseDups_concat_of_mem {xs : List α} {x : α} (hx : x ∈ xs) :
    (xs ++ [x]).eraseDups = xs.eraseDups := by
  rw [List.eraseDups_append, List.removeAll, List.filter_singleton, List.elem_eq_contains,
    List.contains_iff_mem.2 hx]
  exact List.append_nil _

theorem eraseDups_concat_of_not_mem {xs : List α} {x : α} (hx : x ∉ xs) :
    (xs ++ [x]).eraseDups = xs.eraseDups ++ [x] := by
  have hfalse : xs.contains x = false := by
    rw [← Bool.not_eq_true, List.contains_iff_mem]
    exact hx
  rw [List.eraseDups_append, List.removeAll, List.filter_singleton, List.elem_eq_contains, hfalse]
  rfl

/-! ## Whole lists -/

theorem nodup_eraseDups (xs : List α) : xs.eraseDups.Nodup := by
  induction xs using List.reverseRecOn with
  | nil => exact List.nodup_nil
  | append_singleton xs x ih =>
    by_cases hx : x ∈ xs
    · rw [eraseDups_concat_of_mem hx]
      exact ih
    · rw [eraseDups_concat_of_not_mem hx, List.nodup_append']
      refine ⟨ih, List.nodup_singleton x, fun y hy hyx => ?_⟩
      obtain rfl := List.mem_singleton.1 hyx
      exact hx (List.mem_eraseDups.1 hy)

theorem eraseDups_of_nodup {xs : List α} (h : xs.Nodup) : xs.eraseDups = xs := by
  induction xs using List.reverseRecOn with
  | nil => rfl
  | append_singleton xs x ih =>
    obtain ⟨hxs, -, hx⟩ := List.nodup_append'.1 h
    rw [eraseDups_concat_of_not_mem fun hmem => hx hmem List.mem_cons_self, ih hxs]

/-- What the first part of a list repeats is met before the second part begins. -/
theorem eraseDups_append_left (xs ys : List α) :
    (xs.eraseDups ++ ys).eraseDups = (xs ++ ys).eraseDups := by
  have hcontains : ∀ y, xs.eraseDups.contains y = xs.contains y := by
    intro y
    rw [Bool.eq_iff_iff, List.contains_iff_mem, List.contains_iff_mem, List.mem_eraseDups]
  rw [List.eraseDups_append, List.eraseDups_append, eraseDups_of_nodup (nodup_eraseDups xs)]
  simp only [List.removeAll, List.elem_eq_contains, hcontains]

theorem eraseDups_append_cons_of_mem {xs ys : List α} {x : α} (hx : x ∈ xs) :
    (xs ++ x :: ys).eraseDups = (xs ++ ys).eraseDups := by
  rw [List.append_cons, ← eraseDups_append_left, eraseDups_concat_of_mem hx, eraseDups_append_left]

theorem eraseDups_filter (p : α → Bool) (xs : List α) :
    (xs.filter p).eraseDups = xs.eraseDups.filter p := by
  induction xs using List.reverseRecOn with
  | nil => rfl
  | append_singleton xs x ih =>
    rw [List.filter_append, List.filter_singleton]
    by_cases hx : x ∈ xs
    · rw [eraseDups_concat_of_mem hx, ← ih]
      cases hp : p x with
      | false => rw [cond_false, List.append_nil]
      | true => rw [cond_true, eraseDups_concat_of_mem (List.mem_filter.2 ⟨hx, hp⟩)]
    · rw [eraseDups_concat_of_not_mem hx, List.filter_append, List.filter_singleton, ← ih]
      cases hp : p x with
      | false => rw [cond_false, List.append_nil, List.append_nil]
      | true => rw [cond_true, eraseDups_concat_of_not_mem fun h => hx (List.mem_of_mem_filter h)]

end Lineage
