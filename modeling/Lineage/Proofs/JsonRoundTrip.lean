import Lineage.Json.Parser
import Lineage.Proofs.JsonTokens

/-!
# Values read back

The machine that reads JSON completes a value with the last of its tokens, whatever is open around
it, as long as the arrays and objects do not go too deep (`Readable.completes`). So a value is read
back from its text on one line and on several (`read_compact`, `read_pretty`).
-/

namespace Lineage

namespace Json

/-- Goes on with the tokens that follow. -/
def Progress.resume (progress : Progress) (tokens : List Token) :
    Except Fault (Json × List Token) :=
  match progress with
  | .done value => .ok (value, tokens)
  | .open next => next.run none tokens

namespace Partial

theorem run_cons {p : Partial} {token : Token} {progress : Progress}
    (h : p.step none token = .ok progress) (tokens : List Token) :
    p.run none (token :: tokens) = progress.resume tokens := by
  rw [run, h]
  cases progress <;> rfl

/-- Where a value may come next, its tokens complete it. -/
def Completes (room : Nat) (tokens : List Token) (v : Json) : Prop :=
  ∀ stack expected rest, expected = .value ∨ expected = .firstItem →
    stack.length + room ≤ depthLimit →
    run ⟨stack, expected⟩ none (tokens ++ rest) =
      (complete ⟨stack, .value⟩ none v).resume rest

theorem completes_scalar (room : Nat) (v : Json) : Completes room [.scalar v] v := by
  rintro stack expected rest (rfl | rfl) - <;> exact run_cons rfl rest

theorem completes_string (room : Nat) (value : String) :
    Completes room [.string value] (.string value) := by
  rintro stack expected rest (rfl | rfl) - <;> exact run_cons rfl rest

section Containers

variable {room : Nat} {stack : List Frame}

/-- The items of an array that are still to come, up to its end. -/
theorem run_items {items : List Json} (hitems : ∀ v ∈ items, Completes room v.tokens v)
    (hroom : stack.length + (room + 1) ≤ depthLimit) (rest : List Token) (v : Json)
    (hv : Completes room v.tokens v) (reversed : List Json) {expected : Expected}
    (hexpected : expected = .value ∨ expected = .firstItem) :
    run ⟨.array reversed :: stack, expected⟩ none
        ([.comma].intercalate ((v :: items).map tokens) ++ .closeArray :: rest) =
      (complete ⟨stack, .value⟩ none (.array (reversed.reverse ++ v :: items))).resume rest := by
  have hdepth : (Frame.array reversed :: stack).length + room ≤ depthLimit := by
    rw [List.length_cons]
    omega
  -- On the items after this one: a comma leads back to the same state with one more item read.
  induction items generalizing v reversed expected with
  | nil =>
    rw [List.map_singleton, List.intercalate_singleton, hv _ _ _ hexpected hdepth]
    show run ⟨.array (v :: reversed) :: stack, .separator⟩ none _ = _
    rw [run_cons rfl]
    show (complete ⟨stack, .separator⟩ none (.array (v :: reversed).reverse)).resume rest = _
    rw [List.reverse_cons]
    rfl
  | cons w items ih =>
    rw [List.map_cons, List.map_cons, List.intercalate_cons_cons, List.append_assoc,
      List.append_assoc, hv _ _ _ hexpected hdepth]
    show run ⟨.array (v :: reversed) :: stack, .separator⟩ none (.comma :: _) = _
    rw [run_cons rfl]
    refine (ih (fun x hx => hitems x (List.mem_cons_of_mem w hx)) w (hitems w List.mem_cons_self)
      (v :: reversed) (Or.inl rfl) hdepth).trans ?_
    rw [List.reverse_cons, List.append_assoc]
    rfl

theorem complete_object (members : List (String × Json)) (key : String) (v : Json) :
    complete ⟨.object members (some key) :: stack, .value⟩ none v =
      .open ⟨.object ((key, v) :: members) none :: stack, .separator⟩ := by
  unfold complete isUnwanted
  simp

theorem run_member {member : String × Json} (hmember : Completes room member.2.tokens member.2)
    (hroom : stack.length + (room + 1) ≤ depthLimit) (reversed : List (String × Json))
    {expected : Expected} (hexpected : expected = .key ∨ expected = .firstKey)
    (rest : List Token) :
    run ⟨.object reversed none :: stack, expected⟩ none
        (.string member.1 :: .colon :: (member.2.tokens ++ rest)) =
      run ⟨.object (member :: reversed) none :: stack, .separator⟩ none rest := by
  have hkey : (⟨.object reversed none :: stack, expected⟩ : Partial).step none
      (.string member.1) = .ok (.open ⟨.object reversed (some member.1) :: stack, .colon⟩) := by
    rcases hexpected with rfl | rfl <;> rfl
  have hdepth : (Frame.object reversed (some member.1) :: stack).length + room ≤ depthLimit := by
    rw [List.length_cons]
    omega
  rw [run_cons hkey]
  show run ⟨.object reversed (some member.1) :: stack, .colon⟩ none (.colon :: _) = _
  rw [run_cons rfl]
  refine (hmember _ _ rest (Or.inl rfl) hdepth).trans ?_
  rw [complete_object]
  rfl

/-- The members of an object that are still to come, up to its end. -/
theorem run_members {members : List (String × Json)}
    (hmembers : ∀ member ∈ members, Completes room member.2.tokens member.2)
    (hroom : stack.length + (room + 1) ≤ depthLimit) (rest : List Token) (member : String × Json)
    (hmember : Completes room member.2.tokens member.2) (reversed : List (String × Json))
    {expected : Expected} (hexpected : expected = .key ∨ expected = .firstKey) :
    run ⟨.object reversed none :: stack, expected⟩ none
        ([.comma].intercalate ((member :: members).map fun member =>
          .string member.1 :: .colon :: member.2.tokens) ++ .closeObject :: rest) =
      (complete ⟨stack, .value⟩ none
        (.object (reversed.reverse ++ member :: members))).resume rest := by
  induction members generalizing member reversed expected with
  | nil =>
    rw [List.map_singleton, List.intercalate_singleton, List.cons_append, List.cons_append,
      run_member hmember hroom reversed hexpected, run_cons rfl]
    show (complete ⟨stack, .separator⟩ none (.object (member :: reversed).reverse)).resume rest = _
    rw [List.reverse_cons]
    rfl
  | cons next members ih =>
    rw [List.map_cons, List.map_cons, List.intercalate_cons_cons, List.append_assoc,
      List.append_assoc, List.cons_append, List.cons_append,
      run_member hmember hroom reversed hexpected, List.singleton_append, run_cons rfl]
    refine (ih (fun other hother => hmembers other (List.mem_cons_of_mem next hother)) next
      (hmembers next List.mem_cons_self) (member :: reversed) (Or.inl rfl)).trans ?_
    rw [List.reverse_cons, List.append_assoc]
    rfl

end Containers

end Partial

/-- A value is read back from its tokens wherever a value may stand. -/
theorem Readable.completes {room : Nat} {v : Json} (h : v.Readable room) :
    Partial.Completes room v.tokens v := by
  induction h with
  | null => exact Partial.completes_scalar _ _
  | boolean => exact Partial.completes_scalar _ _
  | integer low high => exact Partial.completes_scalar _ _
  | string => exact Partial.completes_string _ _
  | @array room items _ ih =>
    intro stack expected rest hexpected hroom
    have hopen : (⟨stack, expected⟩ : Partial).step none .openArray =
        .ok (.open ⟨.array [] :: stack, .firstItem⟩) := by
      have hstack : stack.length < depthLimit := by omega
      rcases hexpected with rfl | rfl <;> exact if_pos (by rw [decide_eq_true hstack]; rfl)
    rw [tokens, itemTokens_eq, List.cons_append, List.append_assoc, Partial.run_cons hopen]
    cases items with
    | nil => exact Partial.run_cons rfl rest
    | cons v items =>
      exact Partial.run_items (fun w hw => ih w (List.mem_cons_of_mem v hw)) hroom rest v
        (ih v List.mem_cons_self) [] (Or.inr rfl)
  | @object room members _ ih =>
    intro stack expected rest hexpected hroom
    have hopen : (⟨stack, expected⟩ : Partial).step none .openObject =
        .ok (.open ⟨.object [] none :: stack, .firstKey⟩) := by
      have hstack : stack.length < depthLimit := by omega
      rcases hexpected with rfl | rfl <;> exact if_pos (by rw [decide_eq_true hstack]; rfl)
    rw [tokens, memberTokens_eq, List.cons_append, List.append_assoc, Partial.run_cons hopen]
    cases members with
    | nil => exact Partial.run_cons rfl rest
    | cons member members =>
      exact Partial.run_members (fun other hother => ih other (List.mem_cons_of_mem member hother))
        hroom rest member (ih member List.mem_cons_self) [] (Or.inr rfl)

theorem readStart_of_scans {text : String} {v : Json} (h : v.Readable depthLimit)
    (hscans : Token.Scans text.toList v.tokens) : readStart none text = .ok (v, []) := by
  have htokens : Token.scan text.toList = v.tokens := by
    have hscan := hscans [] fun _ hc => nomatch hc
    rwa [List.append_nil, Token.scan, List.append_nil] at hscan
  have hrun := h.completes [] .value [] (Or.inl rfl) (Nat.le_of_eq (Nat.zero_add _))
  rw [List.append_nil] at hrun
  unfold readStart
  rw [htokens]
  exact hrun

/-- A value that a text can hold exactly is read back from its text on one line. -/
theorem read_compact {v : Json} (h : v.Readable depthLimit) : read v.compact = .ok v := by
  unfold read readWanted
  rw [readStart_of_scans h h.scans_compact]

/-- A value that a text can hold exactly is read back from its text on several lines. -/
theorem read_pretty {v : Json} (h : v.Readable depthLimit) : read v.pretty = .ok v := by
  unfold read readWanted pretty
  rw [readStart_of_scans h (h.scans_pretty "" nofun)]

end Json

end Lineage
