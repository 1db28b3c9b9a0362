import Lineage.Proofs.TreeParts
import Lineage.Settings.Tree

/-!
# Partial settings

A tree that holds some fields of settings, laid over the defaults, gives the settings with these
fields, and with the defaults elsewhere: a list counts as a whole, and the levels of single stages
are those that the tree holds (`Settings.ofTree_merge`).
-/

namespace Lineage

open ConfigTree

namespace Dictionary

variable {α : Type}

/-- The values under texts with a property. -/
def filter (d : Dictionary α) (p : String → Bool) : Dictionary α :=
  ⟨d.entries.filter fun e => p e.1, d.ascending.filter _⟩

theorem lookup_filter (entries : List (String × α)) (p : String → Bool) (key : String) :
    (entries.filter fun e => p e.1).lookup key = if p key then entries.lookup key else none := by
  induction entries with
  | nil => simp
  | cons e entries ih =>
    obtain ⟨other, value⟩ := e
    by_cases hkey : key = other
    · subst hkey
      cases hp : p key with
      | true => simp [hp]
      | false =>
        rw [hp] at ih
        simp [hp, ih]
    · rw [lookup_cons_eq_ite, if_neg hkey, ← ih, List.filter_cons]
      split_ifs
      · rw [lookup_cons_eq_ite, if_neg hkey]
      · rfl

@[simp]
theorem get?_filter (d : Dictionary α) (p : String → Bool) (key : String) :
    (d.filter p).get? key = if p key then d.get? key else none :=
  lookup_filter d.entries p key

theorem nodup_keys (d : Dictionary α) : (d.entries.map (·.1)).Nodup := by
  rw [List.Nodup, List.pairwise_map]
  exact d.ascending.imp String.ne_of_lt

theorem get?_eq_some_iff (d : Dictionary α) {key : String} {value : α} :
    d.get? key = some value ↔ (key, value) ∈ d.entries :=
  lookup_eq_some_iff_of_nodup d.nodup_keys

theorem get?_ofList_of_nodup {entries : List (String × α)} (h : (entries.map (·.1)).Nodup)
    (key : String) : (ofList entries).get? key = entries.lookup key := by
  refine Option.ext fun value => ?_
  rw [lookup_eq_some_iff_of_nodup h, get?_ofList_eq_some_iff]
  intro key v w hv hw
  rw [← lookup_eq_some_iff_of_nodup h] at hv hw
  exact Option.some.inj (hv.symm.trans hw)

theorem ofList_entries (d : Dictionary α) : ofList d.entries = d :=
  ext_get? fun key => get?_ofList_of_nodup d.nodup_keys key

theorem insertEntry_map {β : Type} (f : α → β) (key : String) (value : α)
    (entries : List (String × α)) :
    insertEntry key (f value) (entries.map fun e => (e.1, f e.2)) =
      (insertEntry key value entries).map fun e => (e.1, f e.2) := by
  induction entries with
  | nil => rfl
  | cons e entries ih =>
    rw [List.map_cons, insertEntry, insertEntry]
    split_ifs
    · rfl
    · rfl
    · rw [List.map_cons, ih]

theorem entries_ofList_map {β : Type} (f : α → β) (entries : List (String × α)) :
    (ofList (entries.map fun e => (e.1, f e.2))).entries =
      (ofList entries).entries.map fun e => (e.1, f e.2) := by
  have hfold : ∀ (d : Dictionary α) (d' : Dictionary β),
      d'.entries = d.entries.map (fun e => (e.1, f e.2)) →
      ((entries.map fun e => (e.1, f e.2)).foldl (fun d e => d.insert e.1 e.2) d').entries =
        (entries.foldl (fun d e => d.insert e.1 e.2) d).entries.map fun e => (e.1, f e.2) := by
    induction entries with
    | nil => exact fun _ _ h => h
    | cons e entries ih =>
      intro d d' h
      refine ih (d.insert e.1 e.2) (d'.insert e.1 (f e.2)) ?_
      show insertEntry e.1 (f e.2) d'.entries = _
      rw [h, insertEntry_map]
      rfl
  exact hfold empty empty rfl

end Dictionary

/-! ## Reading what was written -/

namespace ConfigTree

theorem itemsFrom_strings (texts : List String) (index : Nat) :
    itemsFrom asText index (texts.map string) = .ok texts := by
  induction texts generalizing index with
  | nil => rfl
  | cons text texts ih =>
    rw [List.map_cons, itemsFrom, ih]
    rfl

@[simp]
theorem asTexts_strings (texts : List String) : (strings texts).asTexts = .ok texts :=
  itemsFrom_strings texts 0

theorem visitEntries_strings (entries : List (String × String)) (d : Dictionary String) :
    visitEntries (fun texts key value => return texts.insert key (← value.asText)) d
        (entries.map fun e => (e.1, e.1, string e.2)) =
      .ok (entries.foldl (fun d e => d.insert e.1 e.2) d) := by
  induction entries generalizing d with
  | nil => rfl
  | cons e entries ih => exact ih (d.insert e.1 e.2)

/-- A table of texts is read as the dictionary of its entries. -/
theorem asDictionary_strings (entries : List (String × String)) :
    (table (entries.map fun e => (e.1, string e.2))).asDictionary = .ok (.ofList entries) := by
  have hentries := Dictionary.entries_ofList_map string entries
  have hvisit := visitEntries_strings (Dictionary.ofList entries).entries {}
  rw [asDictionary, visit, hentries, List.map_map]
  refine hvisit.trans ?_
  exact congrArg Except.ok (Dictionary.ofList_entries (Dictionary.ofList entries))

end ConfigTree

theorem OutputFormat.ofTree_key (format : OutputFormat) :
    OutputFormat.ofTree (.string format.key) = .ok format := by
  rw [OutputFormat.ofTree, ofKey?_key]

theorem ConfigTree.asWord32_toNat (n : UInt32) :
    (ConfigTree.integer n.toNat).asWord32 = .ok n := by
  have hlt : (n.toNat : Int).toNat < UInt32.size := n.toNat_lt
  rw [asWord32, if_pos ⟨Int.natCast_nonneg _, hlt⟩]
  exact congrArg Except.ok (UInt32.ofNat_toNat)

/-! ## Records -/

namespace ConfigTree

variable {entries others whole : List (String × ConfigTree)} {key : String}
  {part value : ConfigTree}

namespace PartOf

theorem exists_table (h : PartOf part (ConfigTree.table whole)) :
    ∃ entries, part = ConfigTree.table entries := by
  cases h with
  | leaf hnot => exact absurd rfl (hnot _)
  | branch => exact ⟨_, rfl⟩

theorem merge_table {below : ConfigTree} (h : PartOf (table entries) (table whole))
    (hbelow : below = table others) (hothers : (others.map (·.1)).Nodup)
    (hkeys : whole.map (·.1) = others.map (·.1)) :
    below.merge (table entries) = table (others.map fun e => (e.1, overlay entries e.1 e.2)) := by
  subst hbelow
  cases h with
  | leaf hnot => exact absurd rfl (hnot _)
  | branch nodup keys => rw [merge, mergeEntries_eq hothers nodup (hkeys ▸ keys)]

/-- A value that is no table replaces what is below it, if it is there. -/
theorem overlay_eq (h : PartOf (table entries) (table whole))
    (hfield : whole.lookup key = some value) (hvalue : ∀ entries, value ≠ table entries)
    (below : ConfigTree) :
    overlay entries key below =
      if ((table entries).at? [key]).isSome then value else below := by
  rw [at?_table]
  unfold overlay
  cases hlookup : entries.lookup key with
  | none => rfl
  | some part =>
    have hpart := h.of_lookup hlookup (Dictionary.mem_of_lookup_eq_some hfield)
    obtain rfl := hpart.eq_of_not_table hvalue
    exact merge_of_not_table hvalue below

/-- So a field is read as it is there, and else as it is below. -/
theorem decode_overlay {α : Type} {decode : ConfigTree → Except Misfit α} {a b : α}
    {below : ConfigTree} (h : PartOf (table entries) (table whole))
    (hfield : whole.lookup key = some value) (hvalue : ∀ entries, value ≠ table entries)
    (ha : decode value = .ok a) (hb : decode below = .ok b) :
    decode (overlay entries key below) =
      .ok (if ((table entries).at? [key]).isSome then a else b) := by
  rw [h.overlay_eq hfield hvalue]
  split_ifs
  · exact ha
  · exact hb

end PartOf

/-- A table under a key, which is empty if it is not there. -/
def tableAt (entries : List (String × ConfigTree)) (key : String) : ConfigTree :=
  (entries.lookup key).getD (table [])

theorem overlay_table (entries : List (String × ConfigTree)) (key : String) :
    overlay entries key (table others) = (table others).merge (tableAt entries key) := by
  unfold overlay tableAt
  cases entries.lookup key with
  | none => exact (merge_nil others).symm
  | some part => rfl

theorem at?_tableAt (entries : List (String × ConfigTree)) (key next : String)
    (keys : List String) :
    (tableAt entries key).at? (next :: keys) = (table entries).at? (key :: next :: keys) := by
  rw [at?_table]
  unfold tableAt
  cases entries.lookup key <;> rfl

theorem PartOf.tableAt {inner : ConfigTree} (h : PartOf (table entries) (table whole))
    (hfield : whole.lookup key = some inner) (hinner : inner = table others) :
    PartOf (tableAt entries key) inner := by
  subst hinner
  unfold ConfigTree.tableAt
  cases hlookup : entries.lookup key with
  | none =>
    exact .branch List.nodup_nil (List.nil_subset _) fun _ _ _ hpart => nomatch hpart
  | some part => exact h.of_lookup hlookup (Dictionary.mem_of_lookup_eq_some hfield)

end ConfigTree

/-! ## Fields that are kept -/

/-- Resolver settings of which some fields are kept, with the defaults elsewhere. -/
def Resolver.keep (r : Resolver) (has : String → Bool) : Resolver where
  rootType := if has "root_type" then r.rootType else ({} : Resolver).rootType
  rootAliases := if has "root_aliases" then r.rootAliases else ({} : Resolver).rootAliases
  builtinTypes := if has "builtin_types" then r.builtinTypes else ({} : Resolver).builtinTypes
  externalPrefixes :=
    if has "external_prefixes" then r.externalPrefixes else ({} : Resolver).externalPrefixes
  allowUnresolved :=
    if has "allow_unresolved" then r.allowUnresolved else ({} : Resolver).allowUnresolved

/-- Log settings of which the filter is kept or not, and the levels of some stages. -/
def Logging.keep (l : Logging) (hasDefault : Bool) (hasModule : String → Bool) : Logging where
  default := if hasDefault then l.default else ({} : Logging).default
  modules := l.modules.filter hasModule

/-- Output settings of which some fields are kept, with the defaults elsewhere. -/
def Output.keep (o : Output) (has : String → Bool) : Output where
  format := if has "format" then o.format else ({} : Output).format
  showCleanTypes :=
    if has "show_clean_types" then o.showCleanTypes else ({} : Output).showCleanTypes

/-- Settings of which the fields under some keys are kept, with the defaults elsewhere. -/
def Settings.keep (s : Settings) (has : List String → Bool) : Settings where
  version := if has ["version"] then s.version else ({} : Settings).version
  debug := if has ["debug"] then s.debug else ({} : Settings).debug
  resolver := s.resolver.keep fun key => has ["resolver", key]
  logging := s.logging.keep (has ["logging", "default"]) fun key => has ["logging", "modules", key]
  output := s.output.keep fun key => has ["output", key]

theorem Resolver.ofTree_table {a b c d e : ConfigTree} {r : Resolver}
    (ha : a.asText = .ok r.rootType) (hb : b.asTexts = .ok r.rootAliases)
    (hc : c.asTexts = .ok r.builtinTypes) (hd : d.asTexts = .ok r.externalPrefixes)
    (he : e.asBool = .ok r.allowUnresolved) :
    Resolver.ofTree (.table [("root_type", a), ("root_aliases", b), ("builtin_types", c),
      ("external_prefixes", d), ("allow_unresolved", e)]) = .ok r := by
  have hentries : (Dictionary.ofList [("root_type", a), ("root_aliases", b), ("builtin_types", c),
      ("external_prefixes", d), ("allow_unresolved", e)]).entries =
      [("allow_unresolved", e), ("builtin_types", c), ("external_prefixes", d),
        ("root_aliases", b), ("root_type", a)] := rfl
  rw [Resolver.ofTree, visit, hentries]
  simp only [visitEntries, List.map_cons, List.map_nil, List.foldlM_cons, List.foldlM_nil,
    setField, ha, hb, hc, hd, he]
  rfl

theorem Resolver.ofTree_merge (r : Resolver) {part : ConfigTree} (h : part.PartOf r.toTree) :
    Resolver.ofTree (({} : Resolver).toTree.merge part) =
      .ok (r.keep fun key => (part.at? [key]).isSome) := by
  obtain ⟨entries, rfl⟩ := h.exists_table
  have hmerge := h.merge_table (show ({} : Resolver).toTree = _ from rfl) (by decide) rfl
  refine (congrArg Resolver.ofTree hmerge).trans (Resolver.ofTree_table ?_ ?_ ?_ ?_ ?_)
  · exact h.decode_overlay rfl nofun rfl rfl
  · exact h.decode_overlay rfl nofun (asTexts_strings _) (asTexts_strings _)
  · exact h.decode_overlay rfl nofun (asTexts_strings _) (asTexts_strings _)
  · exact h.decode_overlay rfl nofun (asTexts_strings _) (asTexts_strings _)
  · exact h.decode_overlay rfl nofun rfl rfl

theorem Output.ofTree_table {a b : ConfigTree} {o : Output}
    (ha : OutputFormat.ofTree a = .ok o.format) (hb : b.asBool = .ok o.showCleanTypes) :
    Output.ofTree (.table [("format", a), ("show_clean_types", b)]) = .ok o := by
  have hentries : (Dictionary.ofList [("format", a), ("show_clean_types", b)]).entries =
      [("format", a), ("show_clean_types", b)] := rfl
  rw [Output.ofTree, visit, hentries]
  simp only [visitEntries, List.map_cons, List.map_nil, List.foldlM_cons, List.foldlM_nil,
    setField, ha, hb]
  rfl

theorem Output.ofTree_merge (o : Output) {part : ConfigTree} (h : part.PartOf o.toTree) :
    Output.ofTree (({} : Output).toTree.merge part) =
      .ok (o.keep fun key => (part.at? [key]).isSome) := by
  obtain ⟨entries, rfl⟩ := h.exists_table
  have hmerge := h.merge_table (show ({} : Output).toTree = _ from rfl) (by decide) rfl
  refine (congrArg Output.ofTree hmerge).trans (Output.ofTree_table ?_ ?_)
  · exact h.decode_overlay rfl nofun (OutputFormat.ofTree_key _) (OutputFormat.ofTree_key _)
  · exact h.decode_overlay rfl nofun rfl rfl

theorem ConfigTree.exists_texts {d : Dictionary String} {entries : List (String × ConfigTree)}
    (h : ∀ e ∈ entries, ∃ text, e.2 = .string text ∧ (e.1, text) ∈ d.entries) :
    ∃ texts : List (String × String), entries = texts.map (fun e => (e.1, .string e.2)) ∧
      texts ⊆ d.entries := by
  induction entries with
  | nil => exact ⟨[], rfl, List.nil_subset _⟩
  | cons e entries ih =>
    obtain ⟨⟨text, htext, hmem⟩, hentries⟩ := List.forall_mem_cons.1 h
    obtain ⟨texts, rfl, hsub⟩ := ih hentries
    exact ⟨(e.1, text) :: texts, by rw [List.map_cons, ← htext], List.cons_subset.2 ⟨hmem, hsub⟩⟩

theorem Dictionary.ofList_eq_filter {α : Type} {d : Dictionary α} {entries : List (String × α)}
    (hnodup : (entries.map (·.1)).Nodup) (hsub : entries ⊆ d.entries) {p : String → Bool}
    (hp : ∀ key, p key = true ↔ key ∈ entries.map (·.1)) : ofList entries = d.filter p := by
  refine ext_get? fun key => ?_
  rw [get?_ofList_of_nodup hnodup, get?_filter]
  cases hlookup : entries.lookup key with
  | none =>
    rw [if_neg]
    rw [hp, ← isSome_lookup_iff, hlookup]
    exact Bool.false_ne_true
  | some value =>
    have hmem := mem_of_lookup_eq_some hlookup
    rw [if_pos ((hp key).2 (List.mem_map_of_mem hmem))]
    exact (d.get?_eq_some_iff.2 (hsub hmem)).symm

/-- A part of a table of texts is read as the part of the dictionary. -/
theorem ConfigTree.asDictionary_merge {d : Dictionary String} {part : ConfigTree}
    (h : part.PartOf (.table (d.entries.map fun e => (e.1, .string e.2)))) :
    ((table []).merge part).asDictionary =
      .ok (d.filter fun key => (part.at? [key]).isSome) := by
  obtain ⟨entries, rfl⟩ := h.exists_table
  cases h with
  | leaf hnot => exact absurd rfl (hnot _)
  | branch nodup keys parts =>
    obtain ⟨texts, rfl, hsub⟩ := exists_texts (d := d) fun e he => by
      obtain ⟨whole, hwhole, hkey⟩ := List.mem_map.1 (keys (List.mem_map_of_mem he))
      obtain ⟨level, hlevel, rfl⟩ := List.mem_map.1 hwhole
      have hpart := parts e.1 e.2 (.string level.2) he (by
        rw [← hkey]
        exact hwhole)
      refine ⟨level.2, hpart.eq_of_not_table nofun, ?_⟩
      rw [← hkey]
      exact hlevel
    have hkeys : (texts.map fun e => (e.1, ConfigTree.string e.2)).map (·.1) =
        texts.map (·.1) := by
      rw [List.map_map]
      rfl
    rw [merge, mergeEntries_of_disjoint (by simpa using nodup), List.nil_append,
      asDictionary_strings]
    refine congrArg Except.ok (Dictionary.ofList_eq_filter (hkeys ▸ nodup) hsub fun key => ?_)
    rw [← hkeys, ← isSome_lookup_iff, at?_table]
    cases (texts.map fun e => (e.1, ConfigTree.string e.2)).lookup key <;> exact Iff.rfl

theorem Logging.ofTree_table {a b : ConfigTree} {l : Logging} (ha : a.asText = .ok l.default)
    (hb : b.asDictionary = .ok l.modules) :
    Logging.ofTree (.table [("default", a), ("modules", b)]) = .ok l := by
  have hentries : (Dictionary.ofList [("default", a), ("modules", b)]).entries =
      [("default", a), ("modules", b)] := rfl
  rw [Logging.ofTree, visit, hentries]
  simp only [visitEntries, List.map_cons, List.map_nil, List.foldlM_cons, List.foldlM_nil,
    setField, ha, hb]
  rfl

/-- A part of log settings laid over the defaults. -/
theorem Logging.ofTree_merge (l : Logging) {part : ConfigTree} (h : part.PartOf l.toTree) :
    Logging.ofTree (({} : Logging).toTree.merge part) =
      .ok (l.keep (part.at? ["default"]).isSome fun key =>
        (part.at? ["modules", key]).isSome) := by
  obtain ⟨entries, rfl⟩ := h.exists_table
  have hmerge := h.merge_table (show ({} : Logging).toTree = _ from rfl) (by decide) rfl
  refine (congrArg Logging.ofTree hmerge).trans (Logging.ofTree_table ?_ ?_)
  · exact h.decode_overlay rfl nofun rfl rfl
  · have hpart : (tableAt entries "modules").PartOf
        (table (l.modules.entries.map fun e => (e.1, string e.2))) := h.tableAt rfl rfl
    have hmodules := asDictionary_merge hpart
    simp only [at?_tableAt] at hmodules
    exact (congrArg asDictionary (overlay_table entries "modules")).trans hmodules

theorem Settings.ofTree_table {a b c d e : ConfigTree} {s : Settings}
    (ha : a.asWord32 = .ok s.version) (hb : b.asBool = .ok s.debug)
    (hc : Resolver.ofTree c = .ok s.resolver) (hd : Logging.ofTree d = .ok s.logging)
    (he : Output.ofTree e = .ok s.output) :
    Settings.ofTree (.table [("version", a), ("debug", b), ("resolver", c), ("logging", d),
      ("output", e)]) = .ok s := by
  have hentries : (Dictionary.ofList [("version", a), ("debug", b), ("resolver", c),
      ("logging", d), ("output", e)]).entries =
      [("debug", b), ("logging", d), ("output", e), ("resolver", c), ("version", a)] := rfl
  rw [Settings.ofTree, visit, hentries]
  simp only [visitEntries, List.map_cons, List.map_nil, List.foldlM_cons, List.foldlM_nil,
    setField, ha, hb, hc, hd, he]
  rfl

/-- A part of settings laid over the defaults gives the settings with these fields alone. -/
theorem Settings.ofTree_merge (s : Settings) {part : ConfigTree} (h : part.PartOf s.toTree) :
    Settings.ofTree (({} : Settings).toTree.merge part) =
      .ok (s.keep fun keys => (part.at? keys).isSome) := by
  obtain ⟨entries, rfl⟩ := h.exists_table
  have hmerge := h.merge_table (show ({} : Settings).toTree = _ from rfl) (by decide) rfl
  refine (congrArg Settings.ofTree hmerge).trans (Settings.ofTree_table ?_ ?_ ?_ ?_ ?_)
  · exact h.decode_overlay rfl nofun (asWord32_toNat _) (asWord32_toNat _)
  · exact h.decode_overlay rfl nofun rfl rfl
  · have hpart : (tableAt entries "resolver").PartOf s.resolver.toTree := h.tableAt rfl rfl
    have hresolver := s.resolver.ofTree_merge hpart
    simp only [at?_tableAt] at hresolver
    exact (congrArg Resolver.ofTree (overlay_table entries "resolver")).trans hresolver
  · have hpart : (tableAt entries "logging").PartOf s.logging.toTree := h.tableAt rfl rfl
    have hlogging := s.logging.ofTree_merge hpart
    simp only [at?_tableAt] at hlogging
    exact (congrArg Logging.ofTree (overlay_table entries "logging")).trans hlogging
  · have hpart : (tableAt entries "output").PartOf s.output.toTree := h.tableAt rfl rfl
    have houtput := s.output.ofTree_merge hpart
    simp only [at?_tableAt] at houtput
    exact (congrArg Output.ofTree (overlay_table entries "output")).trans houtput

/-! ## All fields -/

theorem Logging.map_fst_modules (l : Logging) :
    (l.modules.entries.map fun e => (e.1, ConfigTree.string e.2)).map (·.1) =
      l.modules.entries.map (·.1) := by
  rw [List.map_map]
  rfl

theorem Resolver.partOf_toTree (r : Resolver) : r.toTree.PartOf r.toTree := by
  refine .self_table (show Resolver.fieldNames.Nodup by decide) fun e he => ?_
  simp only [List.mem_cons, List.not_mem_nil, or_false] at he
  rcases he with rfl | rfl | rfl | rfl | rfl <;> exact .leaf nofun

theorem Logging.partOf_toTree (l : Logging) : l.toTree.PartOf l.toTree := by
  refine .self_table (show Logging.fieldNames.Nodup by decide) fun e he => ?_
  simp only [List.mem_cons, List.not_mem_nil, or_false] at he
  rcases he with rfl | rfl
  · exact .leaf nofun
  · refine .self_table (l.map_fst_modules ▸ l.modules.nodup_keys) fun e he => ?_
    obtain ⟨_, -, rfl⟩ := List.mem_map.1 he
    exact .leaf nofun

theorem Output.partOf_toTree (o : Output) : o.toTree.PartOf o.toTree := by
  refine .self_table (show Output.fieldNames.Nodup by decide) fun e he => ?_
  simp only [List.mem_cons, List.not_mem_nil, or_false] at he
  rcases he with rfl | rfl <;> exact .leaf nofun

theorem Settings.partOf_toTree (s : Settings) : s.toTree.PartOf s.toTree := by
  refine .self_table (show Settings.fieldNames.Nodup by decide) fun e he => ?_
  simp only [List.mem_cons, List.not_mem_nil, or_false] at he
  rcases he with rfl | rfl | rfl | rfl | rfl
  · exact .leaf nofun
  · exact .leaf nofun
  · exact s.resolver.partOf_toTree
  · exact s.logging.partOf_toTree
  · exact s.output.partOf_toTree

theorem Settings.keep_toTree (s : Settings) :
    (s.keep fun keys => (s.toTree.at? keys).isSome) = s := by
  have hmodules : (s.logging.modules.filter fun key =>
      (s.toTree.at? ["logging", "modules", key]).isSome) = s.logging.modules := by
    refine (Dictionary.ofList_eq_filter s.logging.modules.nodup_keys (List.Subset.refl _)
      fun key => ?_).symm.trans (Dictionary.ofList_entries _)
    rw [← s.logging.map_fst_modules, ← isSome_lookup_iff]
    show (((s.logging.modules.entries.map fun e => (e.1, ConfigTree.string e.2)).lookup key).bind
      (·.at? [])).isSome = true ↔ _
    cases (s.logging.modules.entries.map fun e => (e.1, ConfigTree.string e.2)).lookup key <;>
      exact Iff.rfl
  have hlogging : s.logging.keep true
      (fun key => (s.toTree.at? ["logging", "modules", key]).isSome) = s.logging := by
    unfold Logging.keep
    rw [hmodules]
    rfl
  show { s with logging := s.logging.keep true fun key =>
    (s.toTree.at? ["logging", "modules", key]).isSome } = s
  rw [hlogging]

end Lineage
