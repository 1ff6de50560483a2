import Monkey.Json
import Mathlib.Data.List.Nodup
import Mathlib.Tactic.Lemma

/-!
# Nodes

A value is a node if it holds given parts: as an object with a member for each part that is there,
in any order and among members of other names, or as the array of the parts in their order. Parts
are smaller than their node. Main statement: `IsNode.measure_lt`.
-/

namespace Monkey.Json

/-- A part of a node: its name and its value, if it is there. -/
abbrev Part := String × Option Json

/-- The members of an object for the parts that are there. -/
def membersOf (parts : List Part) : List (String × Json) :=
  parts.filterMap fun (key, value) => value.map (key, ·)

/-- The value holds the parts: an object has them as members, in any order and among members of
other names; an array has them as items, in their order, and only the last ones can be left out. -/
inductive IsNode (parts : List Part) : Json → Prop where
  | object {ms others} :
    (∀ m ∈ others, m.1 ∉ parts.map Prod.fst) →
    ms.Perm (membersOf parts ++ others) →
    IsNode parts (.object ms)
  | array {items n} :
    parts.map Prod.snd = items.map some ++ List.replicate n none →
    IsNode parts (.array items)

/-- The value of the first part of a name, if it is there. -/
def partUnder (parts : List Part) (key : String) : Option Json :=
  (parts.find? (·.1 == key)).bind Prod.snd

section Nodes

variable {j v : Json} {items : List Json} {key : String} {parts : List Part}
  {ms others : List (String × Json)}

/-- The members of parts are the parts that are there. -/
lemma mem_membersOf {m : String × Json} : m ∈ membersOf parts ↔ (m.1, some m.2) ∈ parts := by
  obtain ⟨key, v⟩ := m
  simp [membersOf]

/-- Where no name is repeated, each part is the one under its name. -/
lemma partUnder_of_mem {part : Part} (nodup : (parts.map Prod.fst).Nodup) (mem : part ∈ parts) :
    partUnder parts part.1 = part.2 := by
  have first : parts.find? (·.1 == part.1) = some part := by
    cases found : parts.find? (·.1 == part.1) with
    | some other =>
      have key : other.1 = part.1 := by simpa using List.find?_some found
      rw [List.inj_on_of_nodup_map nodup (List.mem_of_find?_eq_some found) mem key]
    | none => exact absurd (beq_self_eq_true part.1) (List.find?_eq_none.1 found part mem)
  rw [partUnder, first, Option.bind_some]

/-- Values under tags are the same exactly if tags and values are. -/
lemma tagged_inj {tag tag' : String} {v' : Json} :
    tagged tag v = tagged tag' v' ↔ tag = tag' ∧ v = v' := by
  simp [tagged]

/-- The members have names of parts, each at most once. -/
lemma membersOf_keys (parts : List Part) :
    ((membersOf parts).map Prod.fst).Sublist (parts.map Prod.fst) := by
  induction parts with
  | nil => exact .slnil
  | cons part parts ih =>
    obtain ⟨key, _ | v⟩ := part
    · exact ih.cons key
    · exact ih.cons_cons key

/-- No part is repeated among the members. -/
lemma countP_membersOf (nodup : (parts.map Prod.fst).Nodup) (key : String) :
    (membersOf parts).countP (·.1 == key) ≤ 1 := by
  have count := List.nodup_iff_count_le_one.1 (nodup.sublist (membersOf_keys parts)) key
  rwa [List.count, List.countP_map] at count

section Members

variable (nodup : (parts.map Prod.fst).Nodup) (unknown : ∀ m ∈ others, m.1 ∉ parts.map Prod.fst)
  (perm : ms.Perm (membersOf parts ++ others))

include unknown perm

/-- A member under the name of a part is the part. -/
lemma mem_members_of_mem {m : String × Json} (mem : m ∈ ms) (known : m.1 ∈ parts.map Prod.fst) :
    (m.1, some m.2) ∈ parts := by
  rcases List.mem_append.1 (perm.mem_iff.1 mem) with mem | other
  · exact mem_membersOf.1 mem
  · exact absurd known (unknown m other)

include nodup

/-- A name of a part is not repeated among the members. -/
lemma countP_le {key : String} (mem : key ∈ parts.map Prod.fst) :
    ms.countP (·.1 == key) ≤ 1 := by
  have none : others.countP (·.1 == key) = 0 := by
    rw [List.countP_eq_zero]
    intro m other same
    exact unknown m other (eq_of_beq same ▸ mem)
  rw [perm.countP_eq, List.countP_append, none]
  exact countP_membersOf nodup key

end Members

/-- The members for the parts, in any order, are a node with these parts. -/
lemma IsNode.of_perm (perm : ms.Perm (membersOf parts)) : IsNode parts (.object ms) := by
  have none : ∀ m ∈ ([] : List (String × Json)), m.1 ∉ parts.map Prod.fst := nofun
  exact .object none (by rwa [List.append_nil])

/-- The members for the parts are a node. -/
lemma IsNode.of_membersOf (parts : List Part) : IsNode parts (.object (membersOf parts)) :=
  .of_perm (.refl _)

/-- A part of an object is a member of it. -/
lemma IsNode.mem_object (h : IsNode parts (.object ms)) (mem : (key, some v) ∈ parts) :
    (key, v) ∈ ms := by
  cases h with
  | object _ perm => exact perm.mem_iff.2 (List.mem_append_left _ (mem_membersOf.2 mem))

/-- A member of an object under the name of a part is the part. -/
lemma IsNode.mem_parts {m : String × Json} (h : IsNode parts (.object ms)) (mem : m ∈ ms)
    (known : m.1 ∈ parts.map Prod.fst) : (m.1, some m.2) ∈ parts := by
  cases h with
  | object unknown perm => exact mem_members_of_mem unknown perm mem known

/-- No part is repeated among the members of an object. -/
lemma IsNode.countP_le (h : IsNode parts (.object ms)) (nodup : (parts.map Prod.fst).Nodup)
    (mem : key ∈ parts.map Prod.fst) : ms.countP (·.1 == key) ≤ 1 := by
  cases h with
  | object unknown perm => exact Json.countP_le nodup unknown perm mem

/-- What an array holds as the part at a position is the item at this position. -/
lemma IsNode.getElem?_items {i : Nat} {part : Part} (h : IsNode parts (.array items))
    (found : parts[i]? = some part) : part.2 = items[i]? := by
  cases h with
  | @array items n same =>
    have here := congrArg (·[i]?) same
    simp only [List.getElem?_map, found, Option.map_some] at here
    rcases Nat.lt_or_ge i items.length with inside | outside
    · rw [List.getElem?_append_left (by simpa using inside), List.getElem?_map] at here
      rw [List.getElem?_eq_getElem inside] at here ⊢
      simpa using here
    · rw [List.getElem?_append_right (by simpa using outside), List.getElem?_replicate] at here
      rw [List.getElem?_eq_none outside]
      split at here
      · exact Option.some.inj here
      · cases here

/-- An array has no more items than there are parts. -/
lemma IsNode.length_le (h : IsNode parts (.array items)) : items.length ≤ parts.length := by
  cases h with
  | array same =>
    have := congrArg List.length same
    simp only [List.length_map, List.length_append] at this
    omega

/-- A part is smaller than its node, by any measure that is smaller for items and for members. -/
lemma IsNode.measure_lt {measure : Json → Nat}
    (item : ∀ {items v}, v ∈ items → measure v < measure (.array items))
    (member : ∀ {ms} {m : String × Json}, m ∈ ms → measure m.2 < measure (.object ms))
    (h : IsNode parts j) (mem : (key, some v) ∈ parts) : measure v < measure j := by
  cases j with
  | array items =>
    obtain ⟨i, found⟩ := List.getElem?_of_mem mem
    have here : items[i]? = some v := (h.getElem?_items found).symm
    exact item (List.mem_of_getElem? here)
  | object ms => exact member (h.mem_object mem)
  | _ => cases h

end Nodes

/-! ## Nodes with given names -/

section Names

variable {items : List Json} {keys : List String} {key : String} {ms : List (String × Json)}
  {found : String → Option Json}

/-- The parts that are found under the names. -/
abbrev partsOf (keys : List String) (found : String → Option Json) : List Part :=
  keys.map fun key => (key, found key)

/-- The parts that are found by their names have these names. -/
lemma partsOf_keys (keys : List String) (found : String → Option Json) :
    (partsOf keys found).map Prod.fst = keys := by
  simp [Function.comp_def]

/-- Of what there is once at most, any two are the same. -/
lemma eq_of_countP_le_one {α : Type} {p : α → Bool} {l : List α} {a b : α} (once : l.countP p ≤ 1)
    (memA : a ∈ l) (holdsA : p a) (memB : b ∈ l) (holdsB : p b) : a = b := by
  rw [List.countP_eq_length_filter] at once
  have filteredA : a ∈ l.filter p := List.mem_filter.2 ⟨memA, holdsA⟩
  have filteredB : b ∈ l.filter p := List.mem_filter.2 ⟨memB, holdsB⟩
  obtain ⟨c, single⟩ := List.length_eq_one_iff.1
    (Nat.le_antisymm once (List.length_pos_of_mem filteredA))
  rw [single, List.mem_singleton] at filteredA filteredB
  rw [filteredA, filteredB]

/-- The value of the first member under a key. -/
abbrev firstUnder (ms : List (String × Json)) (key : String) : Option Json :=
  (ms.find? (·.1 == key)).map Prod.snd

section Once

variable (once : ∀ key ∈ keys, ms.countP (·.1 == key) ≤ 1)

include once

/-- Where no name is repeated, each member with one of the names is found under it. -/
lemma mem_membersOf_partsOf {m : String × Json} :
    m ∈ membersOf (partsOf keys (firstUnder ms)) ↔ m ∈ ms ∧ m.1 ∈ keys := by
  rw [mem_membersOf, List.mem_map]
  constructor
  · rintro ⟨key, mem, eq⟩
    obtain ⟨rfl, eq⟩ := Prod.mk.inj eq
    obtain ⟨m', first, same⟩ := Option.map_eq_some_iff.1 eq
    have name : m'.1 = m.1 := by simpa using List.find?_some first
    exact ⟨Prod.ext name same ▸ List.mem_of_find?_eq_some first, mem⟩
  · rintro ⟨mem, known⟩
    refine ⟨m.1, known, Prod.ext rfl ?_⟩
    cases first : ms.find? (·.1 == m.1) with
    | none => exact absurd (beq_self_eq_true m.1) (List.find?_eq_none.1 first m mem)
    | some m' =>
      have name : m'.1 == m.1 := by simpa using List.find?_some first
      have same := eq_of_countP_le_one (once m.1 known) (List.mem_of_find?_eq_some first) name mem
        (beq_self_eq_true m.1)
      simp [firstUnder, first, same]

/-- The members under known names are not repeated. -/
lemma nodup_filter_keys : ((ms.filter fun m => decide (m.1 ∈ keys)).map Prod.fst).Nodup := by
  rw [List.nodup_iff_count_le_one]
  intro key
  by_cases known : key ∈ keys
  · rw [List.count, List.countP_map]
    exact Nat.le_trans (List.filter_sublist.countP_le) (once key known)
  · rw [List.count_eq_zero.2]
    · exact Nat.zero_le _
    · intro mem
      obtain ⟨m, filtered, rfl⟩ := List.mem_map.1 mem
      exact known (of_decide_eq_true (List.mem_filter.1 filtered).2)

/-- An object in which no name is repeated is a node with the parts that it has. -/
lemma isNode_object (nodup : keys.Nodup) : IsNode (partsOf keys (firstUnder ms)) (.object ms) := by
  have known : (ms.filter fun m => decide (m.1 ∈ keys)).Perm
      (membersOf (partsOf keys (firstUnder ms))) := by
    refine (List.perm_ext_iff_of_nodup (nodup_filter_keys once).of_map ?_).2 fun m => ?_
    · refine List.Nodup.of_map Prod.fst (List.Nodup.sublist (membersOf_keys _) ?_)
      rwa [partsOf_keys]
    · rw [mem_membersOf_partsOf once, List.mem_filter, decide_eq_true_eq]
  refine .object (fun m other => ?_)
    ((List.filter_append_perm _ ms).symm.trans (known.append_right _))
  rw [partsOf_keys]
  simpa using (List.mem_filter.1 other).2

end Once

/-- What an object holds under a name is its first member of the name. -/
lemma IsNode.firstUnder_eq (h : IsNode (partsOf keys found) (.object ms)) (mem : key ∈ keys) :
    firstUnder ms key = found key := by
  have known (key) (mem : key ∈ keys) : key ∈ (partsOf keys found).map Prod.fst := by
    rwa [partsOf_keys]
  cases first : ms.find? (·.1 == key) with
  | some m =>
    have name : m.1 = key := by simpa using List.find?_some first
    have there := h.mem_parts (List.mem_of_find?_eq_some first) (known m.1 (name ▸ mem))
    obtain ⟨key', -, same⟩ := List.mem_map.1 there
    obtain ⟨rfl, value⟩ := Prod.mk.inj same
    rw [firstUnder, first, ← name, value]
    rfl
  | none =>
    cases there : found key with
    | none => rw [firstUnder, first, Option.map_none]
    | some v =>
      have member := h.mem_object (List.mem_map.2 ⟨key, mem, by rw [there]⟩)
      exact absurd (beq_self_eq_true key) (List.find?_eq_none.1 first _ member)

/-- An array that is not too long is a node with its items as parts. -/
lemma isNode_array (nodup : keys.Nodup) (le : items.length ≤ keys.length) :
    IsNode (partsOf keys fun key => items[keys.idxOf key]?) (.array items) := by
  refine .array (n := keys.length - items.length) (List.ext_getElem? fun i => ?_)
  rw [List.map_map, List.getElem?_map, List.getElem?_append, List.length_map]
  have here (inside : i < keys.length) :
      keys[i]?.map (Prod.snd ∘ fun key => (key, items[keys.idxOf key]?)) = some items[i]? := by
    rw [List.getElem?_eq_getElem inside]
    show some items[keys.idxOf keys[i]]? = _
    rw [nodup.idxOf_getElem i inside]
  split
  · rename_i inside
    rw [here (Nat.lt_of_lt_of_le inside le), List.getElem?_map, List.getElem?_eq_getElem inside]
    rfl
  · rename_i outside
    rw [List.getElem?_replicate]
    split
    · rw [here (by omega), List.getElem?_eq_none (by omega)]
    · rw [List.getElem?_eq_none (by omega), Option.map_none]

end Names

/-! ## Depth -/

section Depth

variable {j v : Json} {key : String} {parts : List Part} {items : List Json}
  {ms : List (String × Json)} {n : Nat}

/-- Items are no deeper than a bound exactly if each is. -/
lemma depthItems_le_iff : depthItems items ≤ n ↔ ∀ v ∈ items, v.depth ≤ n := by
  induction items with
  | nil => simp [depthItems]
  | cons item others ih => rw [depthItems, Nat.max_le, List.forall_mem_cons, ih]

/-- Members are no deeper than a bound exactly if each is. -/
lemma depthMembers_le_iff : depthMembers ms ≤ n ↔ ∀ m ∈ ms, m.2.depth ≤ n := by
  induction ms with
  | nil => simp [depthMembers]
  | cons member others ih => rw [depthMembers, Nat.max_le, List.forall_mem_cons, ih]

/-- An item is no deeper than all items together. -/
lemma depth_le_of_mem_items (mem : v ∈ items) : v.depth ≤ depthItems items :=
  depthItems_le_iff.1 (Nat.le_refl _) v mem

/-- An item is less deep than the array. -/
lemma depth_lt_of_mem_items (mem : v ∈ items) : v.depth < (array items).depth := by
  rw [depth, Nat.add_comm]
  exact Nat.lt_succ_of_le (depth_le_of_mem_items mem)

/-- A member is less deep than the object. -/
lemma depth_lt_of_mem_members {m : String × Json} (mem : m ∈ ms) :
    m.2.depth < (object ms).depth := by
  rw [depth, Nat.add_comm]
  exact Nat.lt_succ_of_le (depthMembers_le_iff.1 (Nat.le_refl _) m mem)

/-- A tag makes a value deeper by one. -/
@[simp] lemma depth_tagged (tag : String) (v : Json) : (tagged tag v).depth = v.depth + 1 := by
  simp [tagged, depth, depthMembers, Nat.add_comm]

/-- The parts of a node are one level below it or deeper. -/
lemma IsNode.depth_lt (node : IsNode parts j) (mem : (key, some v) ∈ parts) : v.depth < j.depth :=
  node.measure_lt depth_lt_of_mem_items depth_lt_of_mem_members mem

/-- A node has some depth. -/
lemma IsNode.depth_pos (node : IsNode parts j) : 0 < j.depth := by
  cases node <;> exact Nat.add_pos_left Nat.one_pos _

end Depth

end Monkey.Json
