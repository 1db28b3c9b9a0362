/-!
# Computations that may fail

How one computation after another one succeeds, and where a fold over a list fails.
-/

namespace Lineage

theorem bind_eq_ok_iff {ε α β : Type} {x : Except ε α} {f : α → Except ε β} {b : β} :
    (x >>= f) = .ok b ↔ ∃ a, x = .ok a ∧ f a = .ok b := by
  cases x with
  | error e => exact iff_of_false (fun h => nomatch h) fun ⟨_, h, _⟩ => nomatch h
  | ok a =>
    refine ⟨fun h => ⟨a, rfl, h⟩, ?_⟩
    rintro ⟨a', heq, h⟩
    exact Except.ok.inj heq ▸ h

/-- A fold fails at the first entry whose step does. -/
theorem foldlM_eq_error_iff {ε α β : Type} {f : β → α → Except ε β} {xs : List α} {b : β} {e : ε} :
    xs.foldlM f b = .error e ↔ ∃ before x after c, xs = before ++ x :: after ∧
      before.foldlM f b = .ok c ∧ f c x = .error e := by
  induction xs generalizing b with
  | nil =>
    refine iff_of_false (fun h => nomatch h) ?_
    rintro ⟨before, x, after, c, hsplit, -⟩
    simp at hsplit
  | cons y ys ih =>
    rw [List.foldlM_cons]
    cases hy : f b y with
    | error e' =>
      constructor
      · intro h
        obtain rfl : e' = e := Except.error.inj h
        exact ⟨[], y, ys, b, rfl, rfl, hy⟩
      · rintro ⟨before, x, after, c, hsplit, hbefore, hx⟩
        cases before with
        | nil =>
          obtain ⟨rfl, -⟩ := List.cons.inj hsplit
          obtain rfl : b = c := Except.ok.inj hbefore
          exact hy.symm.trans hx
        | cons z before =>
          obtain ⟨rfl, -⟩ := List.cons.inj hsplit
          rw [List.foldlM_cons, hy] at hbefore
          exact nomatch hbefore
    | ok b' =>
      refine ih.trans ⟨?_, ?_⟩
      · rintro ⟨before, x, after, c, rfl, hbefore, hx⟩
        refine ⟨y :: before, x, after, c, rfl, ?_, hx⟩
        rw [List.foldlM_cons, hy]
        exact hbefore
      · rintro ⟨before, x, after, c, hsplit, hbefore, hx⟩
        cases before with
        | nil =>
          obtain ⟨rfl, -⟩ := List.cons.inj hsplit
          obtain rfl : b = c := Except.ok.inj hbefore
          exact nomatch hy.symm.trans hx
        | cons z before =>
          obtain ⟨rfl, rfl⟩ := List.cons.inj hsplit
          rw [List.foldlM_cons, hy] at hbefore
          exact ⟨before, x, after, c, rfl, hbefore, hx⟩

end Lineage
