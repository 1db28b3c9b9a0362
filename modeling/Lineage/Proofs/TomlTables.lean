import Lineage.Proofs.TomlDocument
import Lineage.Proofs.TreeParts

/-!
# Tables of TOML

The statements that a tree is laid out in build its tables up again, one header after the other.
While they are carried out, the table that pairs go to stands at the end of a row of tables, each
the last entry of the one around it (`plug`), so that a change of that table is made in its place
(`descend_plug`). Up to the reserved keys a tree is read back from its document (`read_print`).
-/

namespace Lineage

namespace Toml

namespace Slot

mutual

/-- A finished value as it stands in a document with a header for each table. -/
def ofTree : ConfigTree → Slot
  | .table entries => table .defined (ofEntries entries)
  | tree => value tree

/-- The finished entries of a table. -/
def ofEntries : List (String × ConfigTree) → List (String × Slot)
  | [] => []
  | (key, tree) :: rest => (key, ofTree tree) :: ofEntries rest

end

theorem ofTree_of_readable {room : Nat} {tree : ConfigTree} (h : Readable room tree) :
    ofTree tree = value tree := by
  cases h <;> rfl

theorem ofEntries_append (xs ys : List (String × ConfigTree)) :
    ofEntries (xs ++ ys) = ofEntries xs ++ ofEntries ys := by
  induction xs with
  | nil => rfl
  | cons x xs ih => rw [List.cons_append, ofEntries, ih, ofEntries, List.cons_append]

theorem map_fst_ofEntries (entries : List (String × ConfigTree)) :
    (ofEntries entries).map (·.1) = entries.map (·.1) := by
  induction entries with
  | nil => rfl
  | cons e entries ih => rw [ofEntries, List.map_cons, List.map_cons, ih]

/-- Tables inside each other, the outermost first: the entries before the last one and its key. -/
abbrev Context := List (List (String × Slot) × String)

/-- Entries at the end of a row of tables. -/
def plug : Context → List (String × Slot) → List (String × Slot)
  | [], inner => inner
  | (before, key) :: context, inner => before ++ [(key, table .defined (plug context inner))]

theorem plug_append (context : Context) (before : List (String × Slot)) (key : String)
    (inner : List (String × Slot)) : plug (context ++ [(before, key)]) inner =
      plug context (before ++ [(key, table .defined inner)]) := by
  induction context with
  | nil => rfl
  | cons c context ih => rw [List.cons_append, plug, ih, plug]

/-- No key in a row of tables is taken. -/
def Fresh (context : Context) : Prop :=
  ∀ c ∈ context, c.2 ∉ c.1.map (·.1)

/-- A change at the end of a row of tables is made there. -/
theorem descend_plug {context : Context} (h : Fresh context) (change : Change)
    (inner : List (String × Slot)) :
    descend false change (context.map (·.2)) .defined (plug context inner) =
      (change .defined inner).map (plug context) := by
  induction context with
  | nil => exact Option.map_id'.symm
  | cons c context ih =>
    obtain ⟨hc, hcontext⟩ := List.forall_mem_cons.1 h
    rw [List.map_cons, plug, descend, lookup_concat hc]
    simp only [Bool.false_and, Bool.false_eq_true, if_false, ih hcontext, Option.bind_eq_bind,
      Option.pure_def]
    cases change .defined inner with
    | none => rfl
    | some changed => exact congrArg some (putEntry_concat hc _ _)

end Slot

/-! ## Laying out -/

/-- Entries that a table is laid out in as they stand: values first, then tables, of which so many
may be inside each other. -/
inductive Laid : Nat → List (String × ConfigTree) → Prop
  | intro {room : Nat} {pairs : List (String × ConfigTree)}
    {tables : List (String × List (String × ConfigTree))}
    (nodup : (pairs.map (·.1) ++ tables.map (·.1)).Nodup)
    (pairs_readable : ∀ p ∈ pairs, Readable depthLimit p.2)
    (tables_laid : ∀ t ∈ tables, Laid room t.2) :
    Laid (room + 1) (pairs ++ tables.map fun t => (t.1, .table t.2))

/-- The statements of a table, after the header that it has. -/
def laidStatements (path : List String) (entries : List (String × ConfigTree)) : List Statement :=
  pairStatements entries ++ tableStatements path entries

theorem pairStatements_append (xs ys : List (String × ConfigTree)) :
    pairStatements (xs ++ ys) = pairStatements xs ++ pairStatements ys :=
  List.filterMap_append

theorem pairStatements_pairs {pairs : List (String × ConfigTree)}
    (h : ∀ p ∈ pairs, Readable depthLimit p.2) :
    pairStatements pairs = pairs.map fun p => .pair [p.1] p.2 := by
  induction pairs with
  | nil => rfl
  | cons p pairs ih =>
    obtain ⟨hp, hpairs⟩ := List.forall_mem_cons.1 h
    rw [List.map_cons, ← ih hpairs]
    obtain ⟨key, value⟩ := p
    cases hp <;> rfl

theorem pairStatements_tables (tables : List (String × List (String × ConfigTree))) :
    pairStatements (tables.map fun t => (t.1, .table t.2)) = [] := by
  induction tables with
  | nil => rfl
  | cons t tables ih => exact ih

theorem tableStatements_append (path : List String) (xs ys : List (String × ConfigTree)) :
    tableStatements path (xs ++ ys) = tableStatements path xs ++ tableStatements path ys := by
  induction xs with
  | nil => rfl
  | cons x xs ih =>
    rw [List.cons_append, tableStatements, ih, tableStatements, List.append_assoc]

theorem tableStatements_pairs (path : List String) {pairs : List (String × ConfigTree)}
    (h : ∀ p ∈ pairs, Readable depthLimit p.2) : tableStatements path pairs = [] := by
  induction pairs with
  | nil => rfl
  | cons p pairs ih =>
    obtain ⟨hp, hpairs⟩ := List.forall_mem_cons.1 h
    obtain ⟨key, value⟩ := p
    rw [tableStatements, ih hpairs]
    cases hp <;> rfl

theorem tableStatements_tables (path : List String)
    (tables : List (String × List (String × ConfigTree))) :
    tableStatements path (tables.map fun t => (t.1, .table t.2)) =
      tables.flatMap fun t => .header (path ++ [t.1]) :: laidStatements (path ++ [t.1]) t.2 := by
  induction tables with
  | nil => rfl
  | cons t tables ih =>
    rw [List.map_cons, tableStatements, ih, innerStatements]
    rfl

theorem laidStatements_eq (path : List String) {pairs : List (String × ConfigTree)}
    (tables : List (String × List (String × ConfigTree)))
    (h : ∀ p ∈ pairs, Readable depthLimit p.2) :
    laidStatements path (pairs ++ tables.map fun t => (t.1, .table t.2)) =
      (pairs.map fun p => .pair [p.1] p.2) ++
        tables.flatMap fun t => .header (path ++ [t.1]) :: laidStatements (path ++ [t.1]) t.2 := by
  unfold laidStatements
  rw [pairStatements_append, tableStatements_append, pairStatements_pairs h,
    pairStatements_tables, tableStatements_pairs path h, tableStatements_tables, List.append_nil,
    List.nil_append]
  rfl

theorem Laid.readable {room : Nat} {entries : List (String × ConfigTree)} (h : Laid room entries)
    {path : List String} (hpath : path.length + room < pathLimit) :
    ∀ s ∈ laidStatements path entries, s.Readable := by
  induction h generalizing path with
  | @intro room pairs tables _ hpairs _ ih =>
    intro s hs
    rw [laidStatements_eq path tables hpairs, List.mem_append, List.mem_map,
      List.mem_flatMap] at hs
    rcases hs with ⟨p, hp, rfl⟩ | ⟨t, ht, hs⟩
    · exact ⟨List.cons_ne_nil _ _, show 1 < pathLimit by decide, hpairs p hp⟩
    · have hlength : (path ++ [t.1]).length + room < pathLimit := by
        rw [List.length_append, List.length_singleton]
        omega
      rcases List.mem_cons.1 hs with rfl | hs
      · exact ⟨List.append_ne_nil_of_right_ne_nil _ (List.cons_ne_nil _ _), by omega⟩
      · exact ih t ht hlength s hs

/-! ## Carrying out -/

section Steps

open Slot

variable {context : Context} {done : List (String × Slot)} {key : String}

theorem step_pair (hcontext : Fresh context) (hkey : key ∉ done.map (·.1)) (value : ConfigTree) :
    Progress.step ⟨plug context done, context.map (·.2)⟩ (.pair [key] value) =
      some ⟨plug context (done ++ [(key, .value value)]), context.map (·.2)⟩ := by
  have hset : setPair [key] value .defined done = some (done ++ [(key, .value value)]) := by
    show setValue false key value .defined done = _
    unfold setValue
    rw [lookup_eq_none_of_not_mem hkey, putEntry_of_not_mem hkey]
    rfl
  unfold Progress.step
  simp only [descend_plug hcontext, hset]
  rfl

theorem step_header (hcontext : Fresh context) (hkey : key ∉ done.map (·.1)) (here : List String) :
    Progress.step ⟨plug context done, here⟩ (.header (context.map (·.2) ++ [key])) =
      some ⟨plug (context ++ [(done, key)]) [], (context ++ [(done, key)]).map (·.2)⟩ := by
  have hdefine : defineTable key .defined done = some (done ++ [(key, .table .defined [])]) := by
    unfold defineTable
    rw [lookup_eq_none_of_not_mem hkey, putEntry_of_not_mem hkey]
  unfold Progress.step
  simp only [List.dropLast_concat, List.getLast?_concat, Option.bind_eq_bind, Option.bind_some,
    descend_plug hcontext, hdefine, Option.map_some, Option.pure_def, plug_append, List.map_append,
    List.map_cons, List.map_nil]

theorem nodup_concat {α : Type} {e : String × α} {rest : List (String × α)} (slot : Slot)
    (h : (done.map (·.1) ++ (e :: rest).map (·.1)).Nodup) : e.1 ∉ done.map (·.1) ∧
      ((done ++ [(e.1, slot)]).map (·.1) ++ rest.map (·.1)).Nodup := by
  rw [List.map_cons] at h
  constructor
  · intro hmem
    exact (List.nodup_append.1 h).2.2 e.1 hmem e.1 List.mem_cons_self rfl
  · rw [List.map_append, List.map_cons, List.map_nil, List.append_assoc]
    exact h

theorem foldlM_pairs (hcontext : Fresh context) {pairs : List (String × ConfigTree)}
    (hnodup : (done.map (·.1) ++ pairs.map (·.1)).Nodup)
    (hvalues : ∀ p ∈ pairs, Readable depthLimit p.2) :
    (pairs.map fun p => Statement.pair [p.1] p.2).foldlM Progress.step
        ⟨plug context done, context.map (·.2)⟩ =
      some ⟨plug context (done ++ ofEntries pairs), context.map (·.2)⟩ := by
  induction pairs generalizing done with
  | nil =>
    rw [ofEntries, List.append_nil]
    rfl
  | cons p pairs ih =>
    obtain ⟨hp, hpairs⟩ := List.forall_mem_cons.1 hvalues
    obtain ⟨hkey, hrest⟩ := nodup_concat (.value p.2) hnodup
    rw [List.map_cons, List.foldlM_cons, step_pair hcontext hkey, Option.bind_eq_bind,
      Option.bind_some, ih hrest hpairs, ofEntries, ofTree_of_readable hp, List.append_assoc]
    rfl

theorem foldlM_tables (hcontext : Fresh context)
    {tables : List (String × List (String × ConfigTree))}
    (hnodup : (done.map (·.1) ++ tables.map (·.1)).Nodup)
    (hfill : ∀ t ∈ tables, ∀ context, Fresh context → ∃ here,
      (laidStatements (context.map (·.2)) t.2).foldlM Progress.step
          ⟨plug context [], context.map (·.2)⟩ = some ⟨plug context (ofEntries t.2), here⟩)
    (here : List String) :
    ∃ after, (tables.flatMap fun t => Statement.header (context.map (·.2) ++ [t.1]) ::
        laidStatements (context.map (·.2) ++ [t.1]) t.2).foldlM Progress.step
          ⟨plug context done, here⟩ =
      some ⟨plug context (done ++ ofEntries (tables.map fun t => (t.1, .table t.2))), after⟩ := by
  induction tables generalizing done here with
  | nil =>
    refine ⟨here, ?_⟩
    rw [List.map_nil, ofEntries, List.append_nil]
    rfl
  | cons t tables ih =>
    obtain ⟨ht, htables⟩ := List.forall_mem_cons.1 hfill
    obtain ⟨hkey, hrest⟩ := nodup_concat (ofTree (.table t.2)) hnodup
    have hinner : Fresh (context ++ [(done, t.1)]) :=
      List.forall_mem_append.2 ⟨hcontext, List.forall_mem_singleton.2 hkey⟩
    obtain ⟨filled, hfilled⟩ := ht _ hinner
    obtain ⟨after, hafter⟩ := ih hrest htables filled
    refine ⟨after, ?_⟩
    have hpath : (context ++ [(done, t.1)]).map (·.2) = context.map (·.2) ++ [t.1] := by
      rw [List.map_append, List.map_cons, List.map_nil]
    rw [List.flatMap_cons, List.cons_append, List.foldlM_cons, step_header hcontext hkey,
      Option.bind_eq_bind, Option.bind_some, List.foldlM_append, ← hpath, hfilled,
      Option.bind_eq_bind, Option.bind_some, plug_append]
    rw [List.map_cons, ofEntries]
    rw [List.append_assoc] at hafter
    exact hafter

/-- The statements of a table fill it. -/
theorem foldlM_laid {room : Nat} {entries : List (String × ConfigTree)} (h : Laid room entries)
    {context : Context} (hcontext : Fresh context) :
    ∃ here, (laidStatements (context.map (·.2)) entries).foldlM Progress.step
        ⟨plug context [], context.map (·.2)⟩ = some ⟨plug context (ofEntries entries), here⟩ := by
  induction h generalizing context with
  | @intro room pairs tables hnodup hpairs _ ih =>
    have hkeys : ((ofEntries pairs).map (·.1) ++ tables.map (·.1)).Nodup := by
      rw [map_fst_ofEntries]
      exact hnodup
    have hnew : (([] : List (String × Slot)).map (·.1) ++ pairs.map (·.1)).Nodup :=
      (List.nodup_append.1 hnodup).1
    have hfirst := foldlM_pairs hcontext hnew hpairs
    obtain ⟨here, htables⟩ := foldlM_tables hcontext hkeys (fun t ht _ => ih t ht)
      (context.map (·.2))
    refine ⟨here, ?_⟩
    rw [laidStatements_eq _ tables hpairs, List.foldlM_append, hfirst, Option.bind_eq_bind,
      Option.bind_some, ofEntries_append]
    exact htables

end Steps

/-- Up to the reserved keys, a tree is read back from its document. -/
theorem read_print {room : Nat} {entries : List (String × ConfigTree)} (h : Laid room entries)
    (hroom : room < pathLimit) : read (print (.table entries)) =
      (Slot.entriesToTree? (Slot.ofEntries entries)).map .table := by
  have hstatements : statements (.table entries) = laidStatements [] entries := by
    rw [statements]
    rfl
  have hreadable : ∀ s ∈ laidStatements [] entries, s.Readable :=
    h.readable (by rw [List.length_nil]; omega)
  have hnone : Slot.Fresh [] := nofun
  obtain ⟨here, hfold⟩ := foldlM_laid h hnone
  have hdone : (laidStatements [] entries).foldlM Progress.step {} =
      some ⟨Slot.ofEntries entries, here⟩ := hfold
  unfold read print
  rw [hstatements, String.toList_ofList, dropOrderMark_documentText hreadable,
    readStatements_documentText hreadable]
  simp only [Option.bind_eq_bind, Option.bind_some, ofStatements, hdone, Option.pure_def]
  cases Slot.entriesToTree? (Slot.ofEntries entries) <;> rfl

end Toml

end Lineage
