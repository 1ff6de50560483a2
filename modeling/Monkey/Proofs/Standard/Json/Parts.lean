import Monkey.Standard.Json.Parts
import Monkey.Proofs.Json.Nodes

/-!
# Fields of nodes

What is found under the names of fields is what a node holds, and nothing else than a node has
fields. Main statements: `IsNode.exists_fields?` and `isNode_of_fields?`.
-/

namespace Monkey.Json

variable {j : Json} {keys : List String} {found : String → Option Json}
  {part : String → Option (Inner j)}

/-- The inner items of an array are its items. -/
lemma innerItems_val (items : List Json) : (innerItems items).map Subtype.val = items := by
  simp [innerItems, Function.comp_def]

/-- The inner member of an object is its member. -/
lemma innerMember?_val (ms : List (String × Json)) (key : String) :
    (innerMember? ms key).map Subtype.val = (ms.find? (·.1 == key)).map Prod.snd := by
  have first : (ms.attach.find? (·.1.1 == key)).map Subtype.val = ms.find? (·.1 == key) := by
    rw [← Function.comp_def (fun m : String × Json => m.1 == key) Subtype.val, ← List.find?_map,
      List.attach_map_subtype_val]
  rw [← first, innerMember?, Option.map_map, Option.map_map]
  rfl

/-- The inner item at a place is the item at the place. -/
lemma getElem?_innerItems (items : List Json) (i : Nat) :
    (innerItems items)[i]?.map Subtype.val = items[i]? := by
  rw [← List.getElem?_map, innerItems_val]

/-- Only a node has fields, and it holds what is found. -/
theorem isNode_of_fields? (nodup : keys.Nodup) (h : j.fields? keys = some part) :
    IsNode (partsOf keys fun key => (part key).map Subtype.val) j := by
  unfold fields? at h
  split at h
  · split at h
    · rename_i items le
      cases h
      simp only [getElem?_innerItems]
      exact isNode_array nodup le
    · cases h
  · split at h
    · rename_i ms once
      cases h
      simp only [innerMember?_val]
      exact isNode_object (fun key mem => of_decide_eq_true (List.all_eq_true.1 once key mem)) nodup
    · cases h
  · cases h

/-- What a node holds is found under the names. -/
theorem IsNode.exists_fields? (h : IsNode (partsOf keys found) j) (nodup : keys.Nodup) :
    ∃ part, j.fields? keys = some part ∧ ∀ key ∈ keys, (part key).map Subtype.val = found key := by
  cases j with
  | array items =>
    have le := h.length_le
    rw [List.length_map] at le
    refine ⟨_, if_pos le, fun key mem => ?_⟩
    have place : keys[keys.idxOf key]? = some key := by
      rw [List.getElem?_eq_getElem (List.idxOf_lt_length_iff.2 mem), List.getElem_idxOf]
    have there := h.getElem?_items (by rw [List.getElem?_map, place, Option.map_some])
    exact (getElem?_innerItems items _).trans there.symm
  | object ms =>
    have once : keys.all fun key => ms.countP (·.1 == key) ≤ 1 := by
      rw [List.all_eq_true]
      intro key mem
      exact decide_eq_true (h.countP_le (by rwa [partsOf_keys]) (by rwa [partsOf_keys]))
    refine ⟨_, if_pos once, fun key mem => ?_⟩
    rw [innerMember?_val]
    exact h.firstUnder_eq mem
  | _ => cases h

end Monkey.Json
