import Monkey.Proofs.Json.Laws
import Mathlib.Data.List.Forall2

/-!
# The ways to present a value

A value may be presented by any JSON that is put together as the layouts say: the fields of a node
in any order, among members of other names, or as an array; what may be missing left out. A lawful
library reads a value from exactly the JSON that presents it. What is written for a value presents
it, if the value has no number out of range; and nothing that presents it is nested less deep. Main
statements: `Lawful.decode?_iff` and `Lawful.presents_encode`.
-/

namespace Monkey

open Json

namespace Kind

/-- The JSON presents the value of the kind. What is taken for no content may stand under the name
of a variant that has none. -/
inductive Presents (noContent : Json → Bool) : (k : Kind) → k.Value → Json → Prop where
  | node {k whole fields v j} {found : String → Option Json} :
    k.layout = .node whole fields →
    IsNode (fields.map fun f => (f.name, found f.name)) j →
    (whole || j.isObject) →
    (∀ f ∈ fields, ∀ w, found f.name = some w → Presents noContent f.kind (f.get v) w) →
    (∀ f ∈ fields, found f.name = none → f.kind.absent? = some (f.get v)) →
    Presents noContent k v j
  | choice {k variants v j} {variant : Variant k.Value} {content : variant.kind.Value} :
    k.layout = .choice variants →
    variant ∈ variants →
    variant.content? v = some content →
    Presents noContent variant.kind content j →
    Presents noContent k v (.tagged variant.name j)
  | unit {k name v} :
    k.layout = .unit name →
    Presents noContent k v (.string (name v))
  | tagged {k name v j} :
    k.layout = .unit name →
    noContent j →
    Presents noContent k v (.tagged (name v) j)
  | tuple {k fields v items} :
    k.layout = .tuple fields →
    fields.length = items.length →
    (∀ f j, (f, j) ∈ fields.zip items → Presents noContent f.kind (f.get v) j) →
    Presents noContent k v (.array items)
  | row {k kind values v items} :
    k.layout = .row kind values →
    (values v).length = items.length →
    (∀ w j, (w, j) ∈ (values v).zip items → Presents noContent kind w j) →
    Presents noContent k v (.array items)
  | null {k kind value? v} :
    k.layout = .optional kind value? →
    value? v = none →
    Presents noContent k v .null
  | present {k kind value? v w j} :
    k.layout = .optional kind value? →
    value? v = some w →
    j ≠ .null →
    Presents noContent kind w j →
    Presents noContent k v j
  | leaf {k json inRange v} :
    k.layout = .leaf json inRange →
    inRange v →
    Presents noContent k v (json v)

/-- All numbers in the value are in range. -/
inductive InRange : (k : Kind) → k.Value → Prop where
  | node {k whole fields v} :
    k.layout = .node whole fields →
    (∀ f ∈ fields, InRange f.kind (f.get v)) →
    InRange k v
  | choice {k variants v} {variant : Variant k.Value} {content : variant.kind.Value} :
    k.layout = .choice variants →
    variant ∈ variants →
    variant.content? v = some content →
    InRange variant.kind content →
    InRange k v
  | unit {k name v} :
    k.layout = .unit name →
    InRange k v
  | tuple {k fields v} :
    k.layout = .tuple fields →
    (∀ f ∈ fields, InRange f.kind (f.get v)) →
    InRange k v
  | row {k kind values v} :
    k.layout = .row kind values →
    (∀ w ∈ values v, InRange kind w) →
    InRange k v
  | nothing {k kind value? v} :
    k.layout = .optional kind value? →
    value? v = none →
    InRange k v
  | something {k kind value? v w} :
    k.layout = .optional kind value? →
    value? v = some w →
    InRange kind w →
    InRange k v
  | leaf {k json inRange v} :
    k.layout = .leaf json inRange →
    inRange v →
    InRange k v

/-- In lists of the same length, each element has one at its side. -/
lemma exists_mem_zip {α β : Type} {as : List α} {bs : List β} {a : α}
    (length : as.length = bs.length) (mem : a ∈ as) : ∃ b, (a, b) ∈ as.zip bs := by
  obtain ⟨i, lt, rfl⟩ := List.getElem_of_mem mem
  exact ⟨bs[i], List.mem_iff_getElem.2 ⟨i, by simp; omega, by simp⟩⟩

/-- In a zip of equal lengths each item has a partner. -/
lemma exists_zip_mem {α β : Type} {as : List α} {bs : List β} {b : β}
    (length : as.length = bs.length) (mem : b ∈ bs) : ∃ a, (a, b) ∈ as.zip bs := by
  obtain ⟨i, lt, rfl⟩ := List.getElem_of_mem mem
  exact ⟨as[i], List.mem_iff_getElem.2 ⟨i, by simp; omega, by simp⟩⟩

/-! ## The layouts of the kinds -/

/-- Whether values of the kind may be values of another kind. -/
def rank : Kind → Nat
  | alternative | hint => 1
  | _ => 0

section Layouts

variable {k kind : Kind} {whole : Bool} {fields : List (Field k.Value)}
  {value? : k.Value → Option kind.Value}

/-- No two fields of a node have the same name. -/
lemma nodup_names (layout : k.layout = .node whole fields) : (fields.map Field.name).Nodup := by
  cases k <;> cases layout <;> decide

/-- A field that is not written has the value that it has if it is missing. -/
lemma absent?_of_skips {f : Field k.Value} {v : k.Value} (layout : k.layout = .node whole fields)
    (mem : f ∈ fields) (skips : f.skips v) : f.kind.absent? = some (f.get v) := by
  revert f
  cases k <;> cases layout <;>
    simp only [List.forall_mem_cons, Field.always, Bool.false_eq_true, false_implies,
      List.not_mem_nil, implies_true, and_true, true_and]
  intro none
  rw [Option.isNone_iff_eq_none.1 none]
  rfl

/-- No two variants of a choice have the same name. -/
lemma nodup_variants {variants : List (Variant k.Value)} (layout : k.layout = .choice variants) :
    (variants.map Variant.name).Nodup := by
  cases k <;> cases layout <;> decide

/-- A value has content for one variant only. -/
lemma variant_unique {variants : List (Variant k.Value)} {a b : Variant k.Value} {v : k.Value}
    (layout : k.layout = .choice variants) (memA : a ∈ variants) (memB : b ∈ variants)
    (hasA : (a.content? v).isSome) (hasB : (b.content? v).isSome) : a = b := by
  cases k <;> cases layout <;> simp only [List.mem_cons, List.not_mem_nil, or_false] at memA memB
  case expression =>
    cases v <;> rcases memA with rfl | rfl | rfl | rfl | rfl | rfl | rfl <;> cases hasA <;>
      rcases memB with rfl | rfl | rfl | rfl | rfl | rfl | rfl <;> first | rfl | cases hasB
  all_goals
    cases v <;> rcases memA with rfl | rfl | rfl <;> cases hasA <;>
      rcases memB with rfl | rfl | rfl <;> first | rfl | cases hasB

/-- What is missing has no number out of range. -/
lemma inRange_of_absent {v : k.Value} (absent : k.absent? = some v) : k.InRange v := by
  cases k <;> cases absent
  case alternative => exact .nothing (k := alternative) rfl rfl
  case hint => exact .nothing (k := hint) rfl rfl

/-- What may be left out besides being null is no optional value itself. -/
lemma optional_rank (layout : k.layout = .optional kind value?) : k.rank = 1 ∧ kind.rank = 0 := by
  cases k <;> cases layout <;> exact ⟨rfl, rfl⟩

/-- A number, a text or a truth value is written as plain JSON. -/
lemma leaf_plain {json : k.Value → Json} {inRange : k.Value → Prop} {v : k.Value}
    (layout : k.layout = .leaf json inRange) (within : inRange v) : (json v).IsPlain := by
  cases k <;> cases layout
  case word32 =>
    show v.toNat < _
    exact Nat.lt_trans v.toNat_lt (by decide)
  case word64 => exact within
  case integer =>
    show v.toInt.natAbs < _
    have low := v.minValue_le_toInt
    have high := v.toInt_le
    have word : Numeral.words 64 = 18446744073709551616 := rfl
    have least : Int64.minValue.toInt = -9223372036854775808 := rfl
    have greatest : Int64.maxValue.toInt = 9223372036854775807 := rfl
    omega
  case boolean | text => trivial

end Layouts

section Forms

variable {noContent : Json → Bool} {k : Kind} {fields : List (Field k.Value)} {v : k.Value}

/-- The names of the fields with what is found under them. -/
lemma map_found (fields : List (Field k.Value)) (found : String → Option Json) :
    (fields.map fun f => (f.name, found f.name)) = partsOf (fields.map Field.name) found := by
  rw [partsOf, List.map_map]
  rfl

/-- An object presents a node if no name of a field is repeated in it, and the first member of each
name presents the field; where there is none the field may be missing. -/
lemma presents_object {whole : Bool} {ms : List (String × Json)}
    (layout : k.layout = .node whole fields)
    (once : ∀ key ∈ fields.map Field.name, ms.countP (·.1 == key) ≤ 1)
    (fits : ∀ f ∈ fields, (firstUnder ms f.name).elim (f.kind.absent? = some (f.get v))
      (f.kind.Presents noContent (f.get v))) : k.Presents noContent v (.object ms) := by
  have node := isNode_object once (nodup_names layout)
  rw [← map_found] at node
  refine .node layout node (Bool.or_true _) (fun f mem w there => ?_) fun f mem none => ?_
  · have fit := fits f mem
    rwa [there] at fit
  · have fit := fits f mem
    rwa [none] at fit

/-- An array presents a node that may stand alone if its items present the fields in their order. -/
lemma presents_items {items : List Json} (layout : k.layout = .node true fields)
    (fits : List.Forall₂ (fun f w => f.kind.Presents noContent (f.get v) w) fields items) :
    k.Presents noContent v (.array items) := by
  have nodup := nodup_names layout
  have node := isNode_array nodup (show items.length ≤ _ by simp [fits.length_eq])
  rw [← map_found] at node
  have beside (f) (mem : f ∈ fields) : ∃ w, items[(fields.map Field.name).idxOf f.name]? = some w ∧
      f.kind.Presents noContent (f.get v) w := by
    obtain ⟨i, lt, rfl⟩ := List.getElem_of_mem mem
    have place := nodup.idxOf_getElem i (by simpa using lt)
    rw [List.getElem_map] at place
    rw [place, List.getElem?_eq_getElem (fits.length_eq ▸ lt)]
    exact ⟨_, rfl, fits.get lt (fits.length_eq ▸ lt)⟩
  refine @Presents.node _ _ _ _ _ _ (fun key => items[(fields.map Field.name).idxOf key]?)
    layout node rfl (fun f mem w there => ?_) fun f mem none => ?_
  · obtain ⟨w', there', presents⟩ := beside f mem
    cases there.symm.trans there'
    exact presents
  · obtain ⟨w, there, -⟩ := beside f mem
    cases none.symm.trans there

/-- A node that may not stand alone is presented by an object. -/
lemma Presents.eq_object {j : Json} (h : k.Presents noContent v j)
    (layout : k.layout = .node false fields) : ∃ ms, j = .object ms := by
  cases h with
  | node layout' _ form _ _ =>
    cases layout.symm.trans layout'
    cases j with
    | object ms => exact ⟨ms, rfl⟩
    | _ => cases form
  | _ => grind

end Forms

end Kind

/-- A value that is presented has no number out of range. -/
lemma Kind.Presents.inRange {noContent : Json → Bool} {k : Kind} {v : k.Value} {j : Json}
    (h : k.Presents noContent v j) : k.InRange v := by
  induction h with
  | @node k whole fields v j found layout _ _ _ missing ih =>
    refine .node layout fun f mem => ?_
    cases there : found f.name with
    | some w => exact ih f mem w there
    | none => exact inRange_of_absent (missing f mem there)
  | choice layout mem some _ ih => exact .choice layout mem some ih
  | unit layout => exact .unit layout
  | tagged layout => exact .unit layout
  | tuple layout length _ ih =>
    refine .tuple layout fun f mem => ?_
    obtain ⟨w, mem⟩ := exists_mem_zip length mem
    exact ih f w mem
  | row layout length _ ih =>
    refine .row layout fun w mem => ?_
    obtain ⟨j, mem⟩ := exists_mem_zip length mem
    exact ih w j mem
  | null layout none => exact .nothing layout none
  | present layout some _ _ ih => exact .something layout some ih
  | leaf layout within => exact .leaf layout within

namespace JsonLibrary.Lawful

open Kind

variable {lib : JsonLibrary} {k kind : Kind} {j : Json}

/-! ## Reading -/

/-- What reads as a value presents it. -/
theorem presents_of_decode? (h : lib.Lawful) (k : Kind) (v : k.Value) (j : Json)
    (read : lib.decode? k j = some v) : k.Presents lib.isNoContent v j := by
  have reads := (h.decode k v j).1 read
  generalize layout : k.layout = l at reads
  cases reads with
  | @node whole fields _ found node form fits =>
    refine .node layout node form (fun f mem w there => ?_) fun f mem missing => ?_
    · have part : (f.name, some w) ∈ fields.map fun f => (f.name, found f.name) :=
        List.mem_map.2 ⟨f, mem, by rw [there]⟩
      have lt := node.depth_lt part
      have fit := fits f mem
      rw [there] at fit
      cases fit with
      | found inner => exact h.presents_of_decode? f.kind (f.get v) w inner
    · have fit := fits f mem
      rw [missing] at fit
      cases fit with
      | missing absent => exact absent
  | choice mem content inner =>
    exact .choice layout mem content (h.presents_of_decode? _ _ _ inner)
  | unit => exact .unit layout
  | tagged empty => exact .tagged layout empty
  | tuple fits =>
    obtain ⟨length, fits⟩ := List.forall₂_iff_zip.1 fits
    exact .tuple layout length fun f w mem =>
      have lt := depth_lt_of_mem_items (List.of_mem_zip mem).2
      h.presents_of_decode? f.kind (f.get v) w (fits mem)
  | row fits =>
    obtain ⟨length, fits⟩ := List.forall₂_iff_zip.1 fits
    exact .row layout length fun w j mem =>
      have lt := depth_lt_of_mem_items (List.of_mem_zip mem).2
      h.presents_of_decode? _ w j (fits mem)
  | null nothing => exact .null layout nothing
  | present some notNull inner =>
    have ranks := optional_rank layout
    exact .present layout some notNull (h.presents_of_decode? _ _ _ inner)
  | leaf inRange => exact .leaf layout inRange
termination_by (j.depth, k.rank)
decreasing_by
  · exact .left _ _ lt
  · subst_vars
    exact .left _ _ (by rw [depth_tagged]; exact Nat.lt_succ_self _)
  · subst_vars
    exact .left _ _ lt
  · subst_vars
    exact .left _ _ lt
  · exact .right _ (by rw [ranks.1, ranks.2]; exact Nat.zero_lt_one)

/-- The value is read from all JSON that presents it. -/
lemma decode?_of_presents (h : lib.Lawful) {v : k.Value}
    (presents : k.Presents lib.isNoContent v j) : lib.decode? k j = some v := by
  induction presents with
  | @node k whole fields v j found layout node form _ missing ih =>
    rw [h.decode, layout]
    refine .node node form fun f mem => ?_
    cases there : found f.name with
    | some w => exact .found (ih f mem w there)
    | none => exact .missing (missing f mem there)
  | choice layout mem content _ ih =>
    rw [h.decode, layout]
    exact .choice mem content ih
  | unit layout =>
    rw [h.decode, layout]
    exact .unit
  | tagged layout empty =>
    rw [h.decode, layout]
    exact .tagged empty
  | tuple layout length _ ih =>
    rw [h.decode, layout]
    exact .tuple (List.forall₂_iff_zip.2 ⟨length, fun mem => ih _ _ mem⟩)
  | row layout length _ ih =>
    rw [h.decode, layout]
    exact .row (List.forall₂_iff_zip.2 ⟨length, fun mem => ih _ _ mem⟩)
  | null layout nothing =>
    rw [h.decode, layout]
    exact .null nothing
  | present layout some notNull _ ih =>
    rw [h.decode, layout]
    exact .present some notNull ih
  | leaf layout inRange =>
    rw [h.decode, layout]
    exact .leaf inRange

/-- A value is read from exactly the JSON that presents it. -/
theorem decode?_iff (h : lib.Lawful) {v : k.Value} :
    lib.decode? k j = some v ↔ k.Presents lib.isNoContent v j :=
  ⟨h.presents_of_decode? k v j, h.decode?_of_presents⟩

/-! ## Writing -/

/-- What is written for a value is what its layout says. -/
lemma writes (h : lib.Lawful) {l : Layout k.Value} (layout : k.layout = l) (v : k.Value) :
    l.Writes lib.encode v (lib.encode k v) :=
  layout ▸ h.encode k v

section Forms

variable {whole : Bool} {fields : List (Field k.Value)} {variants : List (Variant k.Value)}
  {variant : Variant k.Value} {content : variant.kind.Value} {values : k.Value → List kind.Value}
  {value? : k.Value → Option kind.Value} {v : k.Value} {w : kind.Value}

/-- A node is encoded as the object of its parts. -/
lemma encode_node (h : lib.Lawful) (layout : k.layout = .node whole fields) :
    lib.encode k v = .object (membersOf (fields.map (Field.part lib.encode v))) := by
  have writes := h.writes layout v
  generalize lib.encode k v = j at writes ⊢
  cases writes with
  | node => rfl

/-- A choice is encoded as the content of its variant under the name of that. -/
lemma encode_choice (h : lib.Lawful) (layout : k.layout = .choice variants)
    (mem : variant ∈ variants) (some : variant.content? v = some content) :
    lib.encode k v = .tagged variant.name (lib.encode variant.kind content) := by
  have writes := h.writes layout v
  generalize lib.encode k v = j at writes ⊢
  cases writes with
  | choice mem' some' =>
    cases variant_unique layout mem mem' (Option.isSome_of_mem some) (Option.isSome_of_mem some')
    cases some.symm.trans some'
    rfl

/-- A unit is encoded as its name. -/
lemma encode_unit {name : k.Value → String} (h : lib.Lawful) (layout : k.layout = .unit name) :
    lib.encode k v = .string (name v) := by
  have writes := h.writes layout v
  generalize lib.encode k v = j at writes ⊢
  cases writes with
  | unit => rfl

/-- A tuple is encoded as the array of its fields. -/
lemma encode_tuple (h : lib.Lawful) (layout : k.layout = .tuple fields) :
    lib.encode k v = .array (fields.map fun f => lib.encode f.kind (f.get v)) := by
  have writes := h.writes layout v
  generalize lib.encode k v = j at writes ⊢
  cases writes with
  | tuple => rfl

/-- A row is encoded as the array of its values. -/
lemma encode_row (h : lib.Lawful) (layout : k.layout = .row kind values) :
    lib.encode k v = .array ((values v).map (lib.encode kind)) := by
  have writes := h.writes layout v
  generalize lib.encode k v = j at writes ⊢
  cases writes with
  | row => rfl

/-- Nothing is encoded as null. -/
lemma encode_nothing (h : lib.Lawful) (layout : k.layout = .optional kind value?)
    (none : value? v = none) : lib.encode k v = .null := by
  have writes := h.writes layout v
  generalize lib.encode k v = j at writes ⊢
  cases writes with
  | null => rfl
  | present some => cases none.symm.trans some

/-- What may be missing is encoded as what it is if it is there. -/
lemma encode_something (h : lib.Lawful) (layout : k.layout = .optional kind value?)
    (some : value? v = some w) : lib.encode k v = lib.encode kind w := by
  have writes := h.writes layout v
  generalize lib.encode k v = j at writes ⊢
  cases writes with
  | null none => cases none.symm.trans some
  | present some' =>
    cases some.symm.trans some'
    rfl

/-- A leaf is encoded as its JSON. -/
lemma encode_leaf {json : k.Value → Json} {inRange : k.Value → Prop} (h : lib.Lawful)
    (layout : k.layout = .leaf json inRange) : lib.encode k v = json v := by
  have writes := h.writes layout v
  generalize lib.encode k v = j at writes ⊢
  cases writes with
  | leaf => rfl

/-- What may be missing is written as null. -/
lemma encode_absent (h : lib.Lawful) (absent : k.absent? = some v) : lib.encode k v = .null := by
  cases k <;> cases absent
  case alternative => exact h.encode_nothing (k := alternative) rfl rfl
  case hint => exact h.encode_nothing (k := hint) rfl rfl

/-- What is optional is not written as null if it is there. -/
lemma encode_ne_null (h : lib.Lawful) (layout : k.layout = .optional kind value?) :
    lib.encode kind w ≠ .null := by
  cases k <;> cases layout
  case alternative =>
    rw [h.encode_node (k := block) rfl]
    nofun
  case hint =>
    rw [h.encode_leaf (k := text) rfl]
    nofun

/-- The members that are written for a node are those of the fields that are written. -/
lemma mem_members_iff {m : String × Json} :
    m ∈ membersOf (fields.map (Field.part lib.encode v)) ↔
      ∃ f ∈ fields, f.skips v = false ∧ m = (f.name, lib.encode f.kind (f.get v)) := by
  obtain ⟨name, j⟩ := m
  simp only [mem_membersOf, List.mem_map, Field.part, Prod.mk.injEq]
  refine exists_congr fun f => and_congr_right fun _ => ?_
  cases f.skips v <;> simp [eq_comm]

/-- What is written for a node holds the fields. -/
lemma isNode_members (layout : k.layout = .node whole fields) :
    ∃ found : String → Option Json,
      IsNode (fields.map fun f => (f.name, found f.name))
        (.object (membersOf (fields.map (Field.part lib.encode v)))) ∧
      ∀ f ∈ fields, found f.name = (f.part lib.encode v).2 := by
  have names : (fields.map (Field.part lib.encode v)).map Prod.fst = fields.map Field.name := by
    rw [List.map_map]
    rfl
  have under (f) (mem : f ∈ fields) :
      partUnder (fields.map (Field.part lib.encode v)) f.name = (f.part lib.encode v).2 :=
    partUnder_of_mem (names ▸ nodup_names layout) (List.mem_map_of_mem mem)
  refine ⟨partUnder (fields.map (Field.part lib.encode v)), ?_, under⟩
  rw [List.map_congr_left fun f mem => Prod.ext (Eq.refl f.name) (under f mem)]
  exact .of_membersOf _

end Forms

/-- What is written for a value presents it, if all its numbers are in range. -/
theorem presents_encode (h : lib.Lawful) {noContent : Json → Bool} {v : k.Value}
    (inRange : k.InRange v) : k.Presents noContent v (lib.encode k v) := by
  induction inRange with
  | @node k whole fields v layout _ ih =>
    obtain ⟨found, node, parts⟩ := @isNode_members lib _ _ _ v layout
    rw [h.encode_node layout]
    -- A field that is written presents its value; one that is left out is absent in the value.
    refine .node layout node (Bool.or_true _) (fun f mem w there => ?_) fun f mem missing => ?_
    · rw [parts f mem, Field.part] at there
      split at there
      · cases there
      · cases there
        exact ih f mem
    · rw [parts f mem, Field.part] at missing
      split at missing
      · rename_i skips
        exact absent?_of_skips layout mem skips
      · cases missing
  | choice layout mem some _ ih =>
    rw [h.encode_choice layout mem some]
    exact .choice layout mem some ih
  | unit layout =>
    rw [h.encode_unit layout]
    exact .unit layout
  | tuple layout _ ih =>
    rw [h.encode_tuple layout]
    refine .tuple layout (List.length_map _).symm fun f j mem => ?_
    rw [← List.map_prod_left_eq_zip] at mem
    obtain ⟨f, here, ⟨⟩⟩ := List.mem_map.1 mem
    exact ih f here
  | row layout _ ih =>
    rw [h.encode_row layout]
    refine .row layout (List.length_map _).symm fun w j mem => ?_
    rw [← List.map_prod_left_eq_zip] at mem
    obtain ⟨w, here, ⟨⟩⟩ := List.mem_map.1 mem
    exact ih w here
  | nothing layout none =>
    rw [h.encode_nothing layout none]
    exact .null layout none
  | something layout some _ ih =>
    rw [h.encode_something layout some]
    exact .present layout some (h.encode_ne_null layout) ih
  | leaf layout within =>
    rw [h.encode_leaf layout]
    exact .leaf layout within

/-- What is written for a value is plain, if all its numbers are in range. -/
theorem encode_plain (h : lib.Lawful) {v : k.Value} (inRange : k.InRange v) :
    (lib.encode k v).IsPlain := by
  induction inRange with
  | node layout _ ih =>
    rw [h.encode_node layout]
    refine membersArePlain_iff.2 fun m mem => ?_
    obtain ⟨f, here, -, rfl⟩ := mem_members_iff.1 mem
    exact ih f here
  | choice layout mem some _ ih =>
    rw [h.encode_choice layout mem some]
    exact ⟨ih, trivial⟩
  | unit layout =>
    rw [h.encode_unit layout]
    trivial
  | tuple layout _ ih =>
    rw [h.encode_tuple layout]
    exact arePlain_iff.2 (List.forall_mem_map.2 ih)
  | row layout _ ih =>
    rw [h.encode_row layout]
    exact arePlain_iff.2 (List.forall_mem_map.2 ih)
  | nothing layout none =>
    rw [h.encode_nothing layout none]
    trivial
  | something layout some _ ih =>
    rw [h.encode_something layout some]
    exact ih
  | leaf layout within =>
    rw [h.encode_leaf layout]
    exact leaf_plain layout within

/-- What is written for a field is nested less deep than what is written for its node. -/
lemma depth_encode_lt (h : lib.Lawful) {whole : Bool} {fields : List (Field k.Value)} {v : k.Value}
    {f : Field k.Value} (layout : k.layout = .node whole fields) (mem : f ∈ fields)
    (written : f.skips v = false) :
    (lib.encode f.kind (f.get v)).depth < (lib.encode k v).depth := by
  rw [h.encode_node layout]
  exact depth_lt_of_mem_members (mem_members_iff.2 ⟨f, mem, written, rfl⟩)

/-- What is written for a node is nested one level deeper than what is written for its fields. -/
lemma depth_encode_node (h : lib.Lawful) {whole : Bool} {fields : List (Field k.Value)}
    {v : k.Value} {n : Nat} (layout : k.layout = .node whole fields)
    (shallow : ∀ f ∈ fields, (lib.encode f.kind (f.get v)).depth ≤ n) :
    (lib.encode k v).depth ≤ n + 1 := by
  rw [h.encode_node layout, depth, Nat.add_comm]
  refine Nat.add_le_add_right (depthMembers_le_iff.2 fun m mem => ?_) 1
  obtain ⟨f, inside, -, rfl⟩ := mem_members_iff.1 mem
  exact shallow f inside

/-- A number, a text or a truth value is not nested. -/
lemma depth_encode_leaf (h : lib.Lawful) {json : k.Value → Json} {inRange : k.Value → Prop}
    (layout : k.layout = .leaf json inRange) (v : k.Value) : (lib.encode k v).depth = 0 := by
  rw [h.encode_leaf layout]
  cases k <;> cases layout <;> rfl

/-- What is written for a value is nested no deeper than what presents it. -/
theorem depth_encode_le (h : lib.Lawful) {noContent : Json → Bool} {v : k.Value}
    (presents : k.Presents noContent v j) : (lib.encode k v).depth ≤ j.depth := by
  induction presents with
  | @node k whole fields v j found layout node _ _ missing ih =>
    -- A member stands for a part that is found, or for one that is written as null.
    have shallow : ∀ m ∈ membersOf (fields.map (Field.part lib.encode v)),
        m.2.depth ≤ j.depth - 1 := by
      intro m mem
      obtain ⟨f, here, -, rfl⟩ := mem_members_iff.1 mem
      cases there : found f.name with
      | some w =>
        have lt := node.depth_lt (List.mem_map.2 ⟨f, here, Prod.ext rfl there⟩)
        have le := ih f here w there
        exact Nat.le_sub_one_of_lt (Nat.lt_of_le_of_lt le lt)
      | none =>
        rw [h.encode_absent (missing f here there)]
        exact Nat.zero_le _
    have level := node.depth_pos
    have le := depthMembers_le_iff.2 shallow
    rw [h.encode_node layout, depth]
    omega
  | choice layout mem some _ ih =>
    rw [h.encode_choice layout mem some, depth_tagged, depth_tagged]
    exact Nat.add_le_add_right ih 1
  | unit layout => exact Nat.le_of_eq (congrArg depth (h.encode_unit layout))
  | tagged layout =>
    rw [h.encode_unit layout]
    exact Nat.zero_le _
  | @tuple k fields v items layout length _ ih =>
    have shallow : ∀ j ∈ fields.map fun f => lib.encode f.kind (f.get v),
        j.depth ≤ depthItems items := by
      intro j mem
      obtain ⟨f, here, rfl⟩ := List.mem_map.1 mem
      obtain ⟨w, beside⟩ := exists_mem_zip length here
      exact Nat.le_trans (ih f w beside) (depth_le_of_mem_items (List.of_mem_zip beside).2)
    rw [h.encode_tuple layout, depth, depth]
    exact Nat.add_le_add_left (depthItems_le_iff.2 shallow) 1
  | @row k kind values v items layout length _ ih =>
    have shallow : ∀ j ∈ (values v).map (lib.encode kind), j.depth ≤ depthItems items := by
      intro j mem
      obtain ⟨w, here, rfl⟩ := List.mem_map.1 mem
      obtain ⟨j, beside⟩ := exists_mem_zip length here
      exact Nat.le_trans (ih w j beside) (depth_le_of_mem_items (List.of_mem_zip beside).2)
    rw [h.encode_row layout, depth, depth]
    exact Nat.add_le_add_left (depthItems_le_iff.2 shallow) 1
  | null layout none => exact Nat.le_of_eq (congrArg depth (h.encode_nothing layout none))
  | present layout some _ _ ih =>
    rw [h.encode_something layout some]
    exact ih
  | leaf layout => exact Nat.le_of_eq (congrArg depth (h.encode_leaf layout))

end JsonLibrary.Lawful

end Monkey
