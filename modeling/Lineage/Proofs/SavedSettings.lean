import Lineage.Proofs.PartialSettings
import Lineage.Proofs.TomlTables
import Lineage.Proofs.WrittenFiles

/-!
# Saved settings

Settings are saved as a document, which is read back as their tree unless a stage is named like one
of the two reserved keys (`Settings.read_print`). The file is found again by its absolute path
(`Workspace.look_writeWithin`), if that is not too long. So saved settings are loaded again
(`Workspace.loadFrom_save`), and a file with some of the fields gives these. All of this is about
regular files that can be read, the only ones that a workspace has.
-/

namespace Lineage

open ConfigTree

/-! ## The document of settings -/

namespace Toml

theorem entriesToTree?_ofEntries_cons (key : String) (tree : ConfigTree)
    (rest : List (String × ConfigTree)) :
    Slot.entriesToTree? (Slot.ofEntries ((key, tree) :: rest)) =
      (Slot.ofTree tree).toTree?.bind fun tree =>
        (Slot.entriesToTree? (Slot.ofEntries rest)).map ((key, tree) :: ·) := by
  rw [Slot.ofEntries, Slot.entriesToTree?]
  cases (Slot.ofTree tree).toTree? with
  | none => rfl
  | some tree => cases Slot.entriesToTree? (Slot.ofEntries rest) <;> rfl

theorem entriesToTree?_ofEntries {pairs : List (String × ConfigTree)}
    (h : ∀ p ∈ pairs, Readable depthLimit p.2) :
    Slot.entriesToTree? (Slot.ofEntries pairs) = some pairs := by
  induction pairs with
  | nil => rfl
  | cons p pairs ih =>
    obtain ⟨hp, hpairs⟩ := List.forall_mem_cons.1 h
    rw [entriesToTree?_ofEntries_cons, Slot.ofTree_of_readable hp, Slot.toTree?, ih hpairs]
    rfl

theorem toTree?_ofTree_table (entries : List (String × ConfigTree)) :
    (Slot.ofTree (.table entries)).toTree? =
      (Slot.entriesToTree? (Slot.ofEntries entries)).bind closeTable := by
  rw [Slot.ofTree, Slot.toTree?]
  rfl

theorem readable_strings (texts : List String) : Readable depthLimit (.strings texts) := by
  refine .list fun item hitem => ?_
  obtain ⟨text, -, rfl⟩ := List.mem_map.1 hitem
  exact .string

theorem Laid.pairs {pairs : List (String × ConfigTree)} (hnodup : (pairs.map (·.1)).Nodup)
    (h : ∀ p ∈ pairs, Readable depthLimit p.2) (room : Nat) : Laid (room + 1) pairs := by
  have hlaid := @Laid.intro room pairs [] (by simpa using hnodup) h nofun
  rwa [List.map_nil, List.append_nil] at hlaid

end Toml

open Toml

def Resolver.fields (r : Resolver) : List (String × ConfigTree) :=
  [("root_type", .string r.rootType), ("root_aliases", .strings r.rootAliases),
    ("builtin_types", .strings r.builtinTypes),
    ("external_prefixes", .strings r.externalPrefixes),
    ("allow_unresolved", .boolean r.allowUnresolved)]

theorem Resolver.readable_fields (r : Resolver) : ∀ p ∈ r.fields, Readable depthLimit p.2 := by
  unfold fields
  simp only [List.forall_mem_cons]
  exact ⟨.string, readable_strings _, readable_strings _, readable_strings _, .boolean, nofun⟩

def Output.fields (o : Output) : List (String × ConfigTree) :=
  [("format", .string o.format.key), ("show_clean_types", .boolean o.showCleanTypes)]

theorem Output.readable_fields (o : Output) : ∀ p ∈ o.fields, Readable depthLimit p.2 := by
  unfold fields
  simp only [List.forall_mem_cons]
  exact ⟨.string, .boolean, nofun⟩

/-- The levels of single stages as entries. -/
def Logging.levels (l : Logging) : List (String × ConfigTree) :=
  l.modules.entries.map fun e => (e.1, .string e.2)

theorem Logging.readable_levels (l : Logging) : ∀ p ∈ l.levels, Readable depthLimit p.2 := by
  intro p hp
  obtain ⟨level, -, rfl⟩ := List.mem_map.1 hp
  exact .string

/-- Settings as a tree, with something else in the place of the levels of single stages. -/
def Settings.treeWith (s : Settings) (modules : ConfigTree) : ConfigTree :=
  .table
    [("version", .integer s.version.toNat), ("debug", .boolean s.debug),
      ("resolver", .table s.resolver.fields),
      ("logging", .table [("default", .string s.logging.default), ("modules", modules)]),
      ("output", .table s.output.fields)]

theorem Settings.treeWith_levels (s : Settings) :
    s.treeWith (.table s.logging.levels) = s.toTree := rfl

theorem Logging.laid (l : Logging) :
    Laid 2 [("default", .string l.default), ("modules", .table l.levels)] := by
  have hlevels : Laid 1 l.levels :=
    .pairs (l.map_fst_modules ▸ l.modules.nodup_keys) l.readable_levels 0
  refine @Laid.intro 1 [("default", .string l.default)] [("modules", l.levels)]
    (show Logging.fieldNames.Nodup by decide) ?_ ?_
  · exact List.forall_mem_singleton.2 .string
  · exact List.forall_mem_singleton.2 hlevels

theorem Settings.laid (s : Settings) :
    Laid 3 [("version", .integer s.version.toNat), ("debug", .boolean s.debug),
      ("resolver", .table s.resolver.fields),
      ("logging", .table [("default", .string s.logging.default),
        ("modules", .table s.logging.levels)]),
      ("output", .table s.output.fields)] := by
  have hversion : (s.version.toNat : Int) < 2 ^ 63 := by
    have := s.version.toNat_lt
    omega
  refine @Laid.intro 2 [("version", .integer s.version.toNat), ("debug", .boolean s.debug)]
    [("resolver", s.resolver.fields), ("logging", [("default", .string s.logging.default),
      ("modules", .table s.logging.levels)]), ("output", s.output.fields)]
    (show Settings.fieldNames.Nodup by decide) ?_ ?_
  · simp only [List.forall_mem_cons]
    exact ⟨.integer (by omega) hversion, .boolean, nofun⟩
  · simp only [List.forall_mem_cons]
    have hresolver : (s.resolver.fields.map (·.1)).Nodup :=
      show Resolver.fieldNames.Nodup by decide
    have houtput : (s.output.fields.map (·.1)).Nodup := show Output.fieldNames.Nodup by decide
    exact ⟨.pairs hresolver s.resolver.readable_fields 1, s.logging.laid,
      .pairs houtput s.output.readable_fields 1, nofun⟩

/-- Settings are read back up to the reserved keys, which can stand only among the levels of single
stages. -/
theorem Settings.read_print (s : Settings) :
    Toml.read (Toml.print s.toTree) = (closeTable s.logging.levels).map s.treeWith := by
  refine (Toml.read_print s.laid (by decide)).trans ?_
  simp only [entriesToTree?_ofEntries_cons, toTree?_ofTree_table,
    entriesToTree?_ofEntries s.resolver.readable_fields,
    entriesToTree?_ofEntries s.output.readable_fields,
    entriesToTree?_ofEntries s.logging.readable_levels, Option.bind_some]
  cases closeTable s.logging.levels with
  | none => rfl
  | some modules => rfl

/-- No stage has a level under a reserved key. -/
def Logging.Unreserved (l : Logging) : Prop :=
  l.modules.get? markKey = none ∧ l.modules.get? valueKey = none

theorem Logging.lookup_levels (l : Logging) (key : String) :
    l.levels.lookup key = (l.modules.get? key).map .string := by
  unfold levels Dictionary.get?
  induction l.modules.entries with
  | nil => rfl
  | cons e entries ih =>
    rw [List.map_cons, List.lookup_cons, List.lookup_cons, ih]
    cases key == e.1 <;> rfl

theorem Logging.closeTable_levels (l : Logging) : closeTable l.levels =
    if (l.modules.get? markKey).isSome then none
    else some (((l.modules.get? valueKey).map .string).getD (.table l.levels)) := by
  unfold closeTable
  rw [l.lookup_levels, l.lookup_levels, Option.isSome_map]

/-! ## Loading -/

/-- No variable sets anything: none has a name that starts as it should and goes on with keys. -/
def Environment.Silent (environment : Environment) : Prop :=
  ∀ v ∈ environment, keys? v.1 = none

theorem Environment.toTree_of_silent {environment : Environment} (h : environment.Silent) :
    environment.toTree = .table [] := by
  induction environment with
  | nil => rfl
  | cons v environment ih =>
    obtain ⟨name, text⟩ := v
    obtain ⟨hv, hrest⟩ := List.forall_mem_cons.1 h
    have hname : keys? name = none := hv
    rw [← ih hrest]
    unfold toTree
    simp only [List.foldl_cons, hname]

theorem Settings.ofLayers_table_nil (entries : List (String × ConfigTree)) :
    Settings.ofLayers [.table entries, .table []] =
      Settings.ofTree (({} : Settings).toTree.merge (.table entries)) := by
  unfold ofLayers
  rw [List.foldl_cons, List.foldl_cons, List.foldl_nil, toTree, merge, merge_nil]

namespace Workspace

variable {w : Workspace} {path : Path} {s : Settings} {tree : ConfigTree}

/-- Where no variable sets anything, a file is laid over the defaults. -/
theorem loadFrom_of_fileTree (hsilent : w.environment.Silent)
    {entries : List (String × ConfigTree)} (htree : w.fileTree path = .ok (.table entries)) :
    w.loadFrom path =
      (Settings.ofTree (({} : Settings).toTree.merge (.table entries))).mapError .misfit := by
  unfold loadFrom
  rw [htree, Environment.toTree_of_silent hsilent, ← Settings.ofLayers_table_nil]
  rfl

theorem loadFrom_of_partOf (hsilent : w.environment.Silent) (htree : w.fileTree path = .ok tree)
    (hpart : tree.PartOf s.toTree) :
    w.loadFrom path = .ok (s.keep fun keys => (tree.at? keys).isSome) := by
  obtain ⟨entries, rfl⟩ := hpart.exists_table
  rw [loadFrom_of_fileTree hsilent htree, s.ofTree_merge hpart]
  rfl

theorem outward_eq (place : Place) :
    place.outward = place :: (List.range place.length).reverse.map place.take := by
  unfold Place.outward
  rw [List.range_succ, List.reverse_append, List.map_append, List.reverse_singleton, List.map_cons,
    List.take_length]
  rfl

theorem fileTree_of_look {text : String}
    (h : w.files.look [] (Path.join w.folder.path path) = .ok (.file text.toUTF8)) :
    w.fileTree path =
      match Toml.read text with
      | none => .error .unreadable
      | some tree => .ok tree := by
  have hfile : w.files.isFile [] (Path.join w.folder.path path) = true := by
    unfold Files.isFile
    rw [h]
  unfold fileTree findFile?
  rw [outward_eq, List.map_cons, List.find?_cons_of_pos hfile]
  simp only [Files.readText_of_look h]
  rfl

/-! ## Saving -/

/-- The path of the working folder leads to it. -/
def Rooted (w : Workspace) : Prop :=
  w.files.locate [] w.folder.path = .ok w.folder

/-- A file can be written at a path. -/
def Writable (w : Workspace) (path : Path) : Prop :=
  (w.files.writeWithin w.folder path .empty).result = .ok ()

theorem Writable.result (hpath : w.Writable path) (bytes : ByteArray) :
    (w.files.writeWithin w.folder path bytes).result = .ok () :=
  (w.files.writeWithin_result w.folder path bytes .empty).trans hpath

theorem Writable.save (hpath : w.Writable path) (s : Settings) : (w.save path s).1 = .ok () :=
  congrArg (Except.mapError (SavingError.unwritable path)) (hpath.result _)

/-- The absolute path of a file that was written leads to it. -/
theorem look_writeWithin (hrooted : w.Rooted) (hpath : w.Writable path)
    (hlength : (Path.join w.folder.path path).utf8ByteSize < Files.pathLimit)
    (bytes : ByteArray) :
    (w.files.writeWithin w.folder path bytes).files.look [] (Path.join w.folder.path path) =
      .ok (.file bytes) := by
  obtain ⟨place, hplace, hentry⟩ := Files.locate_writeWithin (hpath.result bytes)
  have hfolder := (w.files.grows_writeWithin w.folder path bytes).locate hrooted
  refine bind_eq_ok_iff.2 ⟨place, Files.locate_join hfolder hplace hlength, ?_⟩
  rw [hentry]

/-- The file of saved settings holds them, unless a reserved key stands among the levels. -/
theorem fileTree_save (hrooted : w.Rooted) (hpath : w.Writable path)
    (hlength : (Path.join w.folder.path path).utf8ByteSize < Files.pathLimit) (s : Settings) :
    (w.save path s).2.fileTree path =
      if (s.logging.modules.get? markKey).isSome then .error .unreadable
      else .ok (s.treeWith (((s.logging.modules.get? valueKey).map .string).getD
        (.table s.logging.levels))) := by
  have hlook := look_writeWithin hrooted hpath hlength (Toml.print s.toTree).toUTF8
  have htree : (w.save path s).2.fileTree path = _ := fileTree_of_look hlook
  rw [htree, s.read_print, s.logging.closeTable_levels]
  split_ifs <;> rfl

theorem loadFrom_save_iff (hsilent : w.environment.Silent) (hrooted : w.Rooted)
    (hpath : w.Writable path)
    (hlength : (Path.join w.folder.path path).utf8ByteSize < Files.pathLimit) :
    (w.save path s).2.loadFrom path = .ok s ↔ s.logging.Unreserved := by
  have hsilent : (w.save path s).2.environment.Silent := hsilent
  have htree := fileTree_save hrooted hpath hlength s
  cases hmark : s.logging.modules.get? markKey with
  | some mark =>
    rw [hmark, Option.isSome_some, if_pos rfl] at htree
    refine iff_of_false (fun hload => ?_) fun h => nomatch hmark.symm.trans h.1
    unfold loadFrom at hload
    rw [htree] at hload
    exact nomatch hload
  | none =>
    rw [hmark, Option.isSome_none, if_neg Bool.false_ne_true] at htree
    cases hvalue : s.logging.modules.get? valueKey with
    | some level =>
      rw [hvalue] at htree
      refine iff_of_false (fun hload => ?_) fun h => nomatch hvalue.symm.trans h.2
      rw [loadFrom_of_fileTree hsilent htree] at hload
      exact nomatch hload
    | none =>
      rw [hvalue] at htree
      have hwhole := htree.trans (congrArg Except.ok s.treeWith_levels)
      refine iff_of_true ?_ ⟨hmark, hvalue⟩
      rw [loadFrom_of_partOf hsilent hwhole s.partOf_toTree, s.keep_toTree]

end Workspace

/-! ## A path that is too long -/

/-- A path to a file of settings that stays in the working folder for some steps. -/
def windingPath : Nat → Path
  | 0 => "settings.toml"
  | n + 1 => "." ++ "/" ++ windingPath n

theorem splitAll_windingPath (n : Nat) :
    splitAll '/' (windingPath n) = List.replicate n "." ++ ["settings.toml"] := by
  induction n with
  | zero => rfl
  | succ n ih =>
    rw [windingPath, splitAll_append, ih]
    rfl

theorem utf8ByteSize_windingPath (n : Nat) : (windingPath n).utf8ByteSize = 2 * n + 13 := by
  induction n with
  | zero => rfl
  | succ n ih =>
    rw [windingPath, String.utf8ByteSize_append, String.utf8ByteSize_append, ih]
    show 1 + 1 + (2 * n + 13) = _
    omega

theorem names_windingPath (n : Nat) :
    Path.names (windingPath n) = List.replicate n "." ++ ["settings.toml"] := by
  unfold Path.names
  rw [splitAll_windingPath, List.filter_eq_self]
  intro name hname
  rcases List.mem_append.1 hname with hname | hname
  · rw [List.eq_of_mem_replicate hname]
    rfl
  · rw [List.mem_singleton.1 hname]
    rfl

theorem not_mem_windingPath (n : Nat) : '\x00' ∉ (windingPath n).toList := by
  induction n with
  | zero => decide
  | succ n ih =>
    rw [windingPath, String.toList_append, List.mem_append]
    exact not_or.2 ⟨by decide, ih⟩

theorem getLast?_windingPath (n : Nat) : (windingPath n).toList.getLast? = some 'l' := by
  induction n with
  | zero => decide
  | succ n ih =>
    rw [windingPath, String.toList_append, List.getLast?_append, ih]
    rfl

theorem headD_around_windingPath (n : Nat) :
    (Path.around (windingPath n)).headD "" = if n = 0 then "" else "." := by
  cases n with
  | zero => rfl
  | succ n =>
    have htrim : Path.trimPieces (List.replicate n ".") = [] := List.dropWhile_replicate
    unfold Path.around
    rw [splitAll_windingPath, List.replicate_succ]
    show ((Path.shorterPieces (List.replicate n "." ++ ["settings.toml"]).reverse).map
      fun kept => "/".intercalate (["."] ++ kept.reverse)).headD "" = "."
    rw [List.reverse_append, List.reverse_replicate]
    show "/".intercalate (["."] ++ (Path.trimPieces (List.replicate n ".")).reverse) = "."
    rw [htrim]
    rfl

theorem windingPath_ne_empty (n : Nat) : windingPath n ≠ "" := by
  intro h
  have := utf8ByteSize_windingPath n
  rw [h] at this
  change 0 = _ at this
  omega

theorem writable_windingPath {n : Nat} (h : 2 * n + 13 < Files.pathLimit) :
    ({} : Workspace).Writable (windingPath n) := by
  have hfolders : ({} : Files).makeFolders [] ((Path.around (windingPath n)).headD "") =
      { files := {} } := by
    rw [headD_around_windingPath]
    split <;> rfl
  have hstart : Files.origin [] (windingPath n) = .ok [] :=
    Files.origin_eq_ok.2 ⟨Files.checkPath_eq_ok.2 ⟨not_mem_windingPath n,
      (utf8ByteSize_windingPath n).symm ▸ h⟩, windingPath_ne_empty n, ite_self _⟩
  have hplace : ({} : Files).newPlace? [] (windingPath n) = .ok (some ["settings.toml"]) := by
    refine Files.newPlace?_eq_some_iff.2 ⟨[], [], "settings.toml", hstart, ?_, ?_, by decide,
      by decide, rfl⟩
    · rw [names_windingPath, List.dropLast_concat, Files.walk_points rfl]
      rfl
    · rw [names_windingPath, List.getLast?_concat]
  have hslash : (windingPath n).toList.getLast? ≠ some '/' := by
    rw [getLast?_windingPath]
    decide
  unfold Workspace.Writable Files.writeWithin
  rw [hfolders]
  show (({} : Files).attempt (({} : Files).write [] (windingPath n) .empty)).result = .ok ()
  rw [Files.write_eq_ok_iff.2 ⟨_, hplace, hslash, rfl, nofun, rfl⟩]
  rfl

theorem isAbsolute_windingPath (n : Nat) : Path.isAbsolute (windingPath n) = false := by
  cases n with
  | zero => decide
  | succ n =>
    unfold Path.isAbsolute
    rw [windingPath, String.toList_append, String.toList_append]
    rfl

/-- Settings with a level for one stage. -/
def Settings.ofLevel (stage level : String) : Settings :=
  { logging := { modules := Dictionary.empty.insert stage level } }

namespace Workspace

/-- A file is not found if its absolute path is too long. -/
theorem loadFrom_windingPath {n : Nat} (h : Files.pathLimit ≤ 2 * n + 14) (s : Settings) :
    (({} : Workspace).save (windingPath n) s).2.loadFrom (windingPath n) = .ok {} := by
  have hjoin : Path.join (Place.path []) (windingPath n) = "/" ++ windingPath n := by
    unfold Path.join
    rw [isAbsolute_windingPath]
    rfl
  have hlong : Files.pathLimit ≤ (Path.join (Place.path []) (windingPath n)).utf8ByteSize := by
    rw [hjoin, String.utf8ByteSize_append, utf8ByteSize_windingPath]
    show _ ≤ 1 + (2 * n + 13)
    omega
  have hnone : (({} : Workspace).save (windingPath n) s).2.findFile? (windingPath n) = none := by
    unfold findFile?
    show List.find? _ [Path.join (Place.path []) (windingPath n)] = none
    rw [List.find?_singleton, Files.isFile_of_long hlong]
    rfl
  have htree : (({} : Workspace).save (windingPath n) s).2.fileTree (windingPath n) =
      .ok (.table []) := by
    unfold fileTree
    rw [hnone]
  have hsilent : (({} : Workspace).save (windingPath n) s).2.environment.Silent :=
    List.forall_mem_nil _
  exact loadFrom_of_fileTree hsilent htree

/-! ## Loading what was saved -/

/-- Where no variable sets anything, all settings can be saved at a path that can be written, and
they are loaded again exactly if no reserved key stands among their levels. A file that holds some
of the fields of settings gives these, and the defaults elsewhere.

The files of a workspace are regular ones that anyone may read and write: it has neither devices
nor permissions. -/
theorem loadFrom_save {w : Workspace} {path : Path} (hsilent : w.environment.Silent) :
    (w.Rooted → w.Writable path →
      (Path.join w.folder.path path).utf8ByteSize < Files.pathLimit →
      ∀ s, (w.save path s).1 = .ok () ∧
        ((w.save path s).2.loadFrom path = .ok s ↔ s.logging.Unreserved)) ∧
    ∀ (s : Settings) (tree : ConfigTree), w.fileTree path = .ok tree → tree.PartOf s.toTree →
      w.loadFrom path = .ok (s.keep fun keys => (tree.at? keys).isSome) := by
  constructor
  · intro hrooted hpath hlength s
    exact ⟨hpath.save s, loadFrom_save_iff hsilent hrooted hpath hlength⟩
  · intro s tree htree hpart
    exact loadFrom_of_partOf hsilent htree hpart

/-- Neither a level under a reserved key is loaded again, nor anything from a file of which the
absolute path is too long. -/
theorem saved_not_loaded :
    ((({} : Workspace).save "settings.toml" (.ofLevel valueKey "debug")).1 = .ok () ∧
      (({} : Workspace).save "settings.toml" (.ofLevel valueKey "debug")).2.loadFrom
        "settings.toml" = .error (.misfit ⟨.mistyped, ["logging", "modules"]⟩)) ∧
    ((({} : Workspace).save (windingPath 2041) { debug := true }).1 = .ok () ∧
      (({} : Workspace).save (windingPath 2041) { debug := true }).2.loadFrom
        (windingPath 2041) = .ok {}) := by
  have hwritable : ({} : Workspace).Writable "settings.toml" := rfl
  have htree := fileTree_save (w := {}) rfl hwritable (by decide) (.ofLevel valueKey "debug")
  have hsilent : (({} : Workspace).save "settings.toml"
    (.ofLevel valueKey "debug")).2.environment.Silent := List.forall_mem_nil _
  exact ⟨⟨hwritable.save _, loadFrom_of_fileTree hsilent htree⟩,
    (writable_windingPath (by decide)).save _, loadFrom_windingPath (by decide) _⟩

/-- A workspace with a file of settings that holds a tree. -/
def holding (tree : ConfigTree) : Workspace where
  files := ⟨[(["settings.toml"], .file (Toml.print tree).toUTF8)]⟩

theorem fileTree_holding (h : Toml.read (Toml.print tree) = some tree) :
    (holding tree).fileTree "settings.toml" = .ok tree := by
  have hlook : (holding tree).files.look [] (Path.join (Place.path []) "settings.toml") =
      .ok (.file (Toml.print tree).toUTF8) := rfl
  have htree : (holding tree).fileTree "settings.toml" = _ := fileTree_of_look hlook
  rw [htree, h]

theorem loadFrom_save_one_level :
    ((({} : Workspace).save "settings.toml" (.ofLevel "graph.build" "debug")).1 = .ok () ∧
      (({} : Workspace).save "settings.toml" (.ofLevel "graph.build" "debug")).2.loadFrom
        "settings.toml" = .ok (.ofLevel "graph.build" "debug")) ∧
    (holding (.table [("debug", .boolean true),
      ("output", .table [("format", .string "json")])])).loadFrom "settings.toml" =
        .ok { debug := true, output := { format := .json } } := by
  constructor
  · have hwritable : ({} : Workspace).Writable "settings.toml" := rfl
    obtain ⟨hsaved, hloaded⟩ := (loadFrom_save (w := {}) (List.forall_mem_nil _)).1 rfl hwritable
      (by decide) (.ofLevel "graph.build" "debug")
    exact ⟨hsaved, hloaded.2 ⟨by decide, by decide⟩⟩
  · have hlaid : Laid 2 [("debug", .boolean true),
        ("output", .table [("format", .string "json")])] := by
      refine @Laid.intro 1 [("debug", .boolean true)] [("output", [("format", .string "json")])]
        (by decide) ?_ ?_
      · exact List.forall_mem_singleton.2 .boolean
      · refine List.forall_mem_singleton.2 (.pairs (by decide) ?_ 0)
        exact List.forall_mem_singleton.2 .string
    have htree := fileTree_holding ((Toml.read_print hlaid (by decide)).trans rfl)
    have hpart : (table [("debug", .boolean true),
        ("output", .table [("format", .string "json")])]).PartOf
        (Settings.toTree
          { version := 7
            debug := true
            output := { format := .json, showCleanTypes := false } }) := by
      refine .branch (by decide) (by decide) fun key part value hpart hvalue => ?_
      simp only [List.mem_cons, List.not_mem_nil, or_false, Prod.mk.injEq] at hpart hvalue
      rcases hpart with ⟨rfl, rfl⟩ | ⟨rfl, rfl⟩
      · obtain rfl : value = .boolean true := by simpa using hvalue
        exact .leaf nofun
      · obtain rfl : value = Output.toTree { format := .json, showCleanTypes := false } := by
          simpa using hvalue
        refine .branch (by decide) (by decide) fun key part value hpart hvalue => ?_
        simp only [List.mem_cons, List.not_mem_nil, or_false, Prod.mk.injEq] at hpart hvalue
        obtain ⟨rfl, rfl⟩ := hpart
        obtain rfl : value = .string OutputFormat.json.key := by simpa using hvalue
        exact .leaf nofun
    exact (loadFrom_save (w := holding _) (List.forall_mem_nil _)).2 _ _ htree hpart

end Workspace

end Lineage
