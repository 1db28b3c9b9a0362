import Lineage.Proofs.Documents
import Lineage.Proofs.Drafts

/-!
# Declarations read back

A declaration is written with all its fields and read as a native record. Six of its fields are
written under the names that the reader knows; whether it is final is written under a name of its
own, which the reader passes over. So a declaration is read back without that
(`Declaration.declarations_toJson`), and as it was exactly if it is not final
(`writtenDeclaration_iff`).
-/

namespace Lineage

open Json

namespace Declaration

/-- A declaration without the modifier that makes a type final. -/
def extendable (c : Declaration) : Declaration :=
  { c with isFinal := false }

theorem extendable_eq_self_iff {c : Declaration} : c.extendable = c ↔ c.isFinal = false :=
  ⟨fun h => (congrArg isFinal h).symm, fun h => by rw [extendable, ← h]⟩

/-- The members of a written declaration that a reader of native records knows. -/
theorem fields?_toJson (c : Declaration) : c.toJson.fields? Draft.fieldNames =
    some
      [("name", .string c.name), ("kind", .string c.kind.key),
        ("superclass", .optional c.superclass), ("interfaces", .strings c.interfaces),
        ("enclosing_type", .optional c.enclosingType),
        ("methods", .array (c.methods.map (·.toJson)))] := by
  unfold toJson
  rw [fields?_object, members?_object]
  rfl

/-- A written declaration is read as a record of a type that is not final. -/
theorem ofJson?_toJson (c : Declaration) :
    Draft.ofJson? c.toJson = some c.extendable.toDraft := by
  have hkind : TypeKind.ofJson? (.string c.kind.key) = some c.kind := TypeKind.ofJson?_key c.kind
  have hmethods : list? Method.ofJson? (.array (c.methods.map (·.toJson))) = some c.methods :=
    mapM_map_eq_some Method.ofJson?_toJson c.methods
  unfold Draft.ofJson?
  rw [c.fields?_toJson]
  simp [required, defaulted, List.lookup_cons, string?, hkind, hmethods, extendable, toDraft]

theorem readable_toJson (room : Nat) (c : Declaration) : c.toJson.Readable (room + 4) := by
  refine .object fun member hmember => ?_
  simp only [List.mem_cons, List.not_mem_nil, or_false] at hmember
  rcases hmember with rfl | rfl | rfl | rfl | rfl | rfl | rfl
  · exact .string
  · exact .string
  · exact readable_optional _ _
  · exact readable_strings _ _
  · exact readable_optional _ _
  · refine .array fun item hitem => ?_
    obtain ⟨m, -, rfl⟩ := List.mem_map.1 hitem
    exact m.readable_toJson room
  · exact .boolean

theorem readable_array_toJson (c : Declaration) : (array [c.toJson]).Readable depthLimit :=
  .array (List.forall_mem_singleton.2 (c.readable_toJson 122))

end Declaration

/-- Whether a type is final has no part in what has to be said to declare it. -/
theorem Draft.build_extendable {d : Draft} {c : Declaration} (h : d.build = .ok c) :
    c.extendable.toDraft.build = .ok c.extendable := by
  obtain ⟨hwell, rfl⟩ := Draft.build_eq_ok_iff_wellFormed.1 h
  have hextendable : ({ d with isFinal := false } : Draft).WellFormed :=
    { name := hwell.name
      interface := hwell.interface
      superclass := hwell.superclass
      interfaces := hwell.interfaces
      nodup_interfaces := hwell.nodup_interfaces
      enclosingType := hwell.enclosingType
      methodNames := hwell.methodNames
      consistent := hwell.consistent }
  exact Draft.build_eq_ok_iff_wellFormed.2
    ⟨hextendable.declaration,
      (Draft.declaration_toDraft_declaration { d with isFinal := false }).symm⟩

/-- A text with a written declaration as its only item declares the same type, not as final. -/
theorem Declaration.declarations_toJson {d : Draft} {c : Declaration} (h : d.build = .ok c)
    {text : String} (htext : Json.read text = .ok (.array [c.toJson])) :
    (Document.declarations text).value = .ok [c.extendable] := by
  have hrecord : Record.ofJson? c.toJson = some (.native c.extendable.toDraft) := by
    unfold Record.ofJson?
    rw [c.ofJson?_toJson]
    rfl
  have hread : Document.read text = .ok [.native c.extendable.toDraft] := by
    rw [Document.read_of_value htext, Document.ofJson?_of_holds .bare, List.mapM_cons, hrecord]
    rfl
  rw [Document.value_declarations, hread]
  show (Draft.buildAll [c.extendable.toDraft]).value.mapError _ = _
  rw [Draft.value_buildAll, List.mapM_cons, Draft.build_extendable h]
  rfl

/-- A declaration that is written as the only item of an array, on one line or on several, can be
read, and is read back as it was exactly if it is not final. -/
theorem writtenDeclaration_iff {d : Draft} {c : Declaration} (h : d.build = .ok c) :
    Json.read (Json.array [c.toJson]).compact = .ok (.array [c.toJson]) ∧
    Json.read (Json.array [c.toJson]).pretty = .ok (.array [c.toJson]) ∧
    ∀ text, Json.read text = .ok (.array [c.toJson]) →
      (Document.declarations text).value = .ok [c.extendable] ∧
      ((Document.declarations text).value = .ok [c] ↔ c.isFinal = false) := by
  refine ⟨Json.read_compact c.readable_array_toJson, Json.read_pretty c.readable_array_toJson,
    fun text htext => ?_⟩
  have hvalue := Declaration.declarations_toJson h htext
  refine ⟨hvalue, ?_⟩
  rw [hvalue, ← Declaration.extendable_eq_self_iff, Except.ok.injEq, List.cons.injEq,
    and_iff_left rfl]

/-- A class with a superclass, an outer type and methods, final or not. -/
def boxDraft (isFinal : Bool) : Draft where
  name := "app.Shapes$Box"
  kind := .concreteClass
  superclass := some "Shape"
  interfaces := ["Drawable"]
  enclosingType := some "app.Shapes"
  methods := [⟨⟨"area", []⟩, false⟩, ⟨⟨"scale", ["int"]⟩, false⟩]
  isFinal := isFinal

theorem writtenDeclaration_box :
    ∃ c, (boxDraft false).build = .ok c ∧
      (Document.declarations (Json.array [c.toJson]).compact).value = .ok [c] := by
  have hbuild : (boxDraft false).build = .ok (boxDraft false).declaration :=
    Draft.build_eq_ok_iff_wellFormed.2 ⟨by decide, rfl⟩
  obtain ⟨hcompact, -, hread⟩ := writtenDeclaration_iff hbuild
  exact ⟨_, hbuild, (hread _ hcompact).2.2 rfl⟩

/-- A final class does not come back as it was written. -/
theorem finalDeclaration_lost :
    ∃ c, (boxDraft true).build = .ok c ∧
      (Document.declarations (Json.array [c.toJson]).compact).value ≠ .ok [c] := by
  have hbuild : (boxDraft true).build = .ok (boxDraft true).declaration :=
    Draft.build_eq_ok_iff_wellFormed.2 ⟨by decide, rfl⟩
  have hread := Json.read_compact (boxDraft true).declaration.readable_array_toJson
  refine ⟨_, hbuild, fun h => ?_⟩
  rw [Declaration.declarations_toJson hbuild hread] at h
  exact absurd h (by decide)

end Lineage
