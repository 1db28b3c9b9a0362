import Lineage.Document
import Lineage.Proofs.FirstOccurrences
import Lineage.Proofs.JsonRoundTrip

/-!
# Documents read back

Records of both shapes are read back from how they are written (`Record.ofJson?_toJson`): what a
native record leaves out has its default, and an extracted record lacks the name that a native one
must have. All items of a document are read before any is converted (`Document.ofJson?_of_holds`),
and they are converted one by one up to the first error (`Draft.value_buildAll`).
-/

namespace Lineage

theorem mapM_map_eq_some {α β : Type} {encode : α → β} {decode : β → Option α}
    (h : ∀ x, decode (encode x) = some x) (xs : List α) :
    (xs.map encode).mapM decode = some xs := by
  induction xs with
  | nil => rfl
  | cons x xs ih =>
    rw [List.map_cons, List.mapM_cons, h x, ih]
    rfl

theorem mapM_eq_none_of_mem {α β : Type} {decode : α → Option β} {x : α} {xs : List α}
    (hx : x ∈ xs) (h : decode x = none) : xs.mapM decode = none := by
  induction xs with
  | nil => exact nomatch hx
  | cons y xs ih =>
    rw [List.mapM_cons]
    cases hy : decode y with
    | none => rfl
    | some value =>
      rcases List.mem_cons.1 hx with rfl | hmem
      · exact nomatch hy.symm.trans h
      · rw [ih hmem]
        rfl

namespace Json

/-- What is taken from an object are its members with known names, unless one comes twice. -/
theorem members?_object (names : List String) (members : List (String × Json)) :
    (object members).members? names =
      if ((members.filter (names.contains ·.1)).map (·.1)).eraseDups.length =
          (members.filter (names.contains ·.1)).length then
        some (members.filter (names.contains ·.1))
      else none :=
  rfl

/-- Members with known names, in their order and none twice, are all kept. -/
theorem members?_of_sublist {names : List String} {members : List (String × Json)}
    (h : (members.map (·.1)).Sublist names) (hnodup : names.Nodup) :
    (object members).members? names = some members := by
  have hfilter : members.filter (names.contains ·.1) = members := by
    rw [List.filter_eq_self]
    exact fun member hmember =>
      List.contains_iff_mem.2 (h.subset (List.mem_map_of_mem hmember))
  rw [members?_object, hfilter, eraseDups_of_nodup (h.nodup hnodup), List.length_map, if_pos rfl]

theorem members?_of_unknown {names : List String} {members : List (String × Json)}
    (hunknown : ∀ key ∈ members.map (·.1), key ∉ names) :
    (object members).members? names = some [] := by
  have hfilter : members.filter (names.contains ·.1) = [] := by
    rw [List.filter_eq_nil_iff]
    intro member hmember hcontains
    exact hunknown member.1 (List.mem_map_of_mem hmember) (List.contains_iff_mem.1 hcontains)
  rw [members?_object, hfilter]
  rfl

theorem fields?_object (names : List String) (members : List (String × Json)) :
    (object members).fields? names = (object members).members? names :=
  rfl

theorem word32?_natural (n : UInt32) : (natural n.toNat).word32? = some n := by
  unfold natural word32?
  simp only [Int.toNat_natCast]
  rw [if_pos ⟨Int.natCast_nonneg _, n.toNat_lt⟩, UInt32.ofNat_toNat]

end Json

open Json

theorem Method.ofJson?_toJson (m : Method) : Method.ofJson? m.toJson = some m := by
  have hfields : m.toJson.members? fieldNames = some _ :=
    members?_of_sublist (List.Sublist.refl _) (by decide)
  unfold Method.ofJson?
  rw [hfields]
  simp [Signature.ofFields?, required, defaulted, List.lookup_cons, string?, boolean?]

theorem TypeKind.ofJson?_key (kind : TypeKind) :
    TypeKind.ofJson? (.string kind.key) = some kind :=
  ofKey?_key kind

namespace Draft

/-- What a native record leaves out does not change the order of its members. -/
theorem fields?_toJson (d : Draft) : ∃ members, d.toJson = .object members ∧
    d.toJson.fields? fieldNames = some members := by
  refine ⟨_, rfl, (fields?_object _ _).trans (members?_of_sublist ?_ (by decide))⟩
  have hsublist : ∀ {condition : Prop} [Decidable condition] {key : String} {value : Json},
      ((if condition then [] else [(key, value)]).map (·.1)).Sublist [key] := by
    intro condition _ key value
    split_ifs
    · exact List.nil_sublist _
    · exact List.Sublist.refl _
  have hoptional : ∀ {text : Option String} {key : String},
      ((text.toList.map fun name => (key, Json.string name)).map (·.1)).Sublist [key] := by
    rintro (_ | _) key
    · exact List.nil_sublist _
    · exact List.Sublist.refl _
  simp only [List.map_append]
  exact (((List.Sublist.refl _).append hoptional).append hsublist |>.append hoptional).append
    (List.Sublist.refl _)

/-- Every field is read back from its member, and what is left out has its default. -/
theorem members_toJson {d : Draft} {members : List (String × Json)}
    (h : d.toJson = .object members) :
    required members "name" string? = some d.name ∧
      required members "kind" TypeKind.ofJson? = some d.kind ∧
      defaulted members "superclass" optional? none = some d.superclass ∧
      defaulted members "interfaces" strings? [] = some d.interfaces ∧
      defaulted members "enclosing_type" optional? none = some d.enclosingType ∧
      defaulted members "methods" (list? Method.ofJson?) [] = some d.methods ∧
      defaulted members "final" boolean? false = some d.isFinal := by
  obtain rfl := Json.object.inj h
  obtain ⟨name, kind, superclass, interfaces, enclosing, methods, isFinal⟩ := d
  have hmethods : list? Method.ofJson? (.array (methods.map (·.toJson))) = some methods :=
    mapM_map_eq_some Method.ofJson?_toJson methods
  have hinterfaces := strings?_strings interfaces
  -- Which members are there depends on these three fields only.
  cases superclass <;> cases interfaces <;> cases enclosing <;>
    exact ⟨rfl, TypeKind.ofJson?_key kind, rfl, hinterfaces, rfl, hmethods, rfl⟩

theorem ofJson?_toJson (d : Draft) : ofJson? d.toJson = some d := by
  obtain ⟨members, hmembers, hfields⟩ := d.fields?_toJson
  obtain ⟨hname, hkind, hsuperclass, hinterfaces, henclosing, hmethods, hfinal⟩ :=
    members_toJson hmembers
  unfold ofJson?
  rw [hfields]
  simp only [Option.bind_eq_bind, Option.bind_some, hname, hkind, hsuperclass, hinterfaces,
    henclosing, hmethods, hfinal]
  rfl

theorem ofJson?_extract (e : Extract) : ofJson? e.toJson = none := by
  have hunknown : ∀ key ∈ Extract.fieldNames, key ∉ fieldNames := by decide
  have hfields : e.toJson.fields? fieldNames = some [] :=
    (fields?_object _ _).trans (members?_of_unknown hunknown)
  unfold ofJson?
  rw [hfields]
  rfl

end Draft

theorem Extract.ofJson?_toJson (e : Extract) : Extract.ofJson? e.toJson = some e := by
  have hfields : e.toJson.fields? fieldNames = some _ :=
    (fields?_object _ _).trans (members?_of_sublist (List.Sublist.refl _) (by decide))
  unfold Extract.ofJson?
  rw [hfields]
  simp [required, defaulted, List.lookup_cons, string?, word32?_natural]

/-! ## Records and documents -/

/-- A record of either shape is read back, and none is taken for one of the other shape. -/
theorem Record.ofJson?_toJson (r : Record) : Record.ofJson? r.toJson = some r := by
  unfold Record.ofJson?
  cases r with
  | native draft =>
    show ((Draft.ofJson? draft.toJson).map native).or _ = _
    rw [Draft.ofJson?_toJson]
    rfl
  | extracted extract =>
    show ((Draft.ofJson? extract.toJson).map native).or
      ((Extract.ofJson? extract.toJson).map extracted) = _
    rw [Draft.ofJson?_extract, Extract.ofJson?_toJson]
    rfl

/-- The declaration that a record is converted to by itself, or the error in it. -/
def Record.toDeclaration (r : Record) : Except StructureError Declaration :=
  r.toDraft.build.mapError r.toDraft.error

theorem Draft.value_buildAll (drafts : List Draft) :
    (Draft.buildAll drafts).value = drafts.mapM fun d => d.build.mapError d.error := by
  induction drafts with
  | nil => rfl
  | cons d drafts ih =>
    rw [List.mapM_cons, ← ih, Draft.buildAll]
    cases d.build with
    | error flaw => rfl
    | ok declaration =>
      simp only []
      cases (Draft.buildAll drafts).value <;> rfl

namespace Document

theorem value_buildAll (document : Document) :
    (Draft.buildAll (document.map (·.toDraft))).value = document.mapM Record.toDeclaration := by
  rw [Draft.value_buildAll, List.mapM_map]
  rfl

/-- The JSON value of a document with these items, by itself or in an object. -/
inductive Holds (items : List Json) : Json → Prop
  | bare : Holds items (.array items)
  | wrapped : Holds items (.object [("declarations", .array items)])

theorem ofJson?_of_holds {items : List Json} {value : Json} (h : Holds items value) :
    ofJson? value = items.mapM Record.ofJson? := by
  cases h with
  | bare => rfl
  | wrapped =>
    have hfields : (Json.object [("declarations", .array items)]).members? ["declarations"] =
        some [("declarations", .array items)] :=
      members?_of_sublist (List.Sublist.refl _) (by decide)
    show (((Json.object [("declarations", .array items)]).members? ["declarations"]).bind
      fun fields => required fields "declarations" (list? Record.ofJson?)) = _
    rw [hfields]
    rfl

theorem read_of_value {text : String} {value : Json} (h : Json.read text = .ok value) :
    read text =
      match ofJson? value with
      | none => .error .shapeless
      | some document => .ok document := by
  have hstart : Json.readStart none text = .ok (value, []) := by
    unfold Json.read Json.readWanted at h
    split at h
    · exact nomatch h
    · next heq =>
      obtain rfl := Except.ok.inj h
      exact heq
    · exact nomatch h
  unfold read
  rw [hstart]
  rfl

/-- A text with the items of records holds the document of these records. -/
theorem read_of_holds {document : Document} {text : String} {value : Json}
    (hvalue : Holds (document.map (·.toJson)) value) (htext : Json.read text = .ok value) :
    read text = .ok document := by
  rw [read_of_value htext, ofJson?_of_holds hvalue, mapM_map_eq_some Record.ofJson?_toJson]

theorem read_of_not_record {items : List Json} {text : String} {value item : Json}
    (hvalue : Holds items value) (htext : Json.read text = .ok value) (hitem : item ∈ items)
    (hnone : Record.ofJson? item = none) : read text = .error .shapeless := by
  rw [read_of_value htext, ofJson?_of_holds hvalue, mapM_eq_none_of_mem hitem hnone]

end Document

/-! ## Written documents -/

theorem Json.readable_strings (room : Nat) (texts : List String) :
    (strings texts).Readable (room + 1) := by
  refine .array fun item hitem => ?_
  obtain ⟨text, -, rfl⟩ := List.mem_map.1 hitem
  exact .string

theorem Json.readable_optional (room : Nat) (text : Option String) :
    (optional text).Readable room := by
  cases text with
  | none => exact .null
  | some text => exact .string

theorem Method.readable_toJson (room : Nat) (m : Method) : m.toJson.Readable (room + 2) := by
  refine .object fun member hmember => ?_
  simp only [List.mem_cons, List.not_mem_nil, or_false] at hmember
  rcases hmember with rfl | rfl | rfl
  · exact .string
  · exact readable_strings room _
  · exact .boolean

theorem Draft.readable_toJson (room : Nat) (d : Draft) : d.toJson.Readable (room + 4) := by
  have hoptional : ∀ (key : String) (text : Option String),
      ∀ member ∈ text.toList.map fun name => (key, Json.string name),
        member.2.Readable (room + 3) := by
    intro key text member hmember
    obtain ⟨name, -, rfl⟩ := List.mem_map.1 hmember
    exact .string
  refine .object ?_
  simp only [List.forall_mem_append]
  refine ⟨⟨⟨⟨?_, hoptional _ _⟩, ?_⟩, hoptional _ _⟩, ?_⟩
  · exact List.forall_mem_cons.2 ⟨.string, List.forall_mem_singleton.2 .string⟩
  · split_ifs
    · exact List.forall_mem_nil _
    · exact List.forall_mem_singleton.2 (readable_strings _ _)
  · refine List.forall_mem_cons.2
      ⟨.array fun item hitem => ?_, List.forall_mem_singleton.2 .boolean⟩
    obtain ⟨m, -, rfl⟩ := List.mem_map.1 hitem
    exact m.readable_toJson room

theorem Extract.readable_toJson (room : Nat) (e : Extract) : e.toJson.Readable (room + 2) := by
  have hlines : (natural e.lines.toNat).Readable (room + 1) := by
    have hlt := e.lines.toNat_lt
    exact .integer (by omega) (by omega)
  refine .object fun member hmember => ?_
  simp only [List.mem_cons, List.not_mem_nil, or_false] at hmember
  rcases hmember with rfl | rfl | rfl | rfl | rfl | rfl
  · exact .string
  · exact readable_strings room _
  · exact hlines
  · exact .string
  · exact readable_optional _ _
  · exact readable_strings room _

theorem Record.readable_toJson (room : Nat) (r : Record) : r.toJson.Readable (room + 4) := by
  cases r with
  | native draft => exact draft.readable_toJson room
  | extracted extract => exact extract.readable_toJson (room + 2)

namespace Document

theorem readable_of_holds {document : Document} {value : Json}
    (hvalue : Holds (document.map (·.toJson)) value) (room : Nat) :
    value.Readable (room + 6) := by
  have hitems : ∀ room, ∀ item ∈ document.map (·.toJson), item.Readable (room + 4) := by
    intro room item hitem
    obtain ⟨r, -, rfl⟩ := List.mem_map.1 hitem
    exact r.readable_toJson room
  cases hvalue with
  | bare => exact .array (hitems (room + 1))
  | wrapped => exact .object (List.forall_mem_singleton.2 (.array (hitems room)))

end Document

/-- Records that are written down and read back give the declarations that they are converted to
one by one, or the first error of these conversions. An item that is no record makes the whole text
no document, whatever is wrong with the others. -/
theorem declarations_of_written (document : Document) :
    (∀ value, Document.Holds (document.map (·.toJson)) value →
      Json.read value.compact = .ok value ∧ Json.read value.pretty = .ok value ∧
        ∀ text, Json.read text = .ok value → (Document.declarations text).value =
          (document.mapM Record.toDeclaration).mapError .structural) ∧
    ∀ i < document.length, ∀ item, Record.ofJson? item = none →
      ∀ value, Document.Holds ((document.map (·.toJson)).set i item) value →
        ∀ text, Json.read text = .ok value →
          (Document.declarations text).value = .error (.invalid .shapeless) := by
  constructor
  · intro value hvalue
    have hreadable : value.Readable depthLimit := Document.readable_of_holds hvalue 121
    refine ⟨Json.read_compact hreadable, Json.read_pretty hreadable, fun text htext => ?_⟩
    rw [Document.value_declarations, Document.read_of_holds hvalue htext]
    show (Draft.buildAll _).value.mapError _ = _
    rw [Document.value_buildAll]
  · intro i hi item hnone value hvalue text htext
    have hitem : item ∈ (document.map (·.toJson)).set i item :=
      List.mem_set (by rwa [List.length_map]) item
    rw [Document.value_declarations, Document.read_of_not_record hvalue htext hitem hnone]

/-- A native record that can be converted, and an extracted one that cannot. -/
def mixed : Document :=
  [.native {
      name := " app.Shape ", kind := .abstractClass, methods := [⟨⟨"area", ["int"]⟩, true⟩],
      isFinal := true },
    .extracted {
      className := "Printable", methods := ["print"], lines := 4, typeWord := "interface",
      extended := some "", implemented := ["Displayable"] }]

theorem declarations_of_written_mixed :
    (Document.declarations mixed.toWrappedJson.compact).value =
      .error (.structural (.malformed "Printable" "empty supertype reference")) ∧
    Record.ofJson? (.string "app.Shape") = none ∧
    ∀ text, Json.read text = .ok (.array ((mixed.map (·.toJson)).set 0 (.string "app.Shape"))) →
      (Document.declarations text).value = .error (.invalid .shapeless) := by
  obtain ⟨hwritten, hother⟩ := declarations_of_written mixed
  obtain ⟨hcompact, -, hdeclarations⟩ := hwritten mixed.toWrappedJson .wrapped
  refine ⟨(hdeclarations _ hcompact).trans rfl, rfl, ?_⟩
  exact hother 0 (by decide) (.string "app.Shape") rfl _ .bare

end Lineage
