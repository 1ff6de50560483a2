import Monkey.Proofs.Json.Presentation

/-!
# What is expected inside a document

Since each kind of value has a layout, it is fixed from the document down what is expected at each
place. In JSON that presents a document, what is expected at a place presents a value of the kind,
and has none of the defects that the layout rules out. Main statement: `not_defective`.
-/

namespace Monkey

open Json

namespace Kind

/-- Directly inside the value of the kind, a value of another kind is expected. -/
inductive Expects : Kind → Json → Kind → Json → Prop where
  | member {k whole fields v} {f : Field k.Value} {ms : List (String × Json)} :
    k.layout = .node whole fields →
    f ∈ fields →
    (f.name, v) ∈ ms →
    Expects k (.object ms) f.kind v
  | position {k whole fields v} {f : Field k.Value} {i : Nat} {items : List Json} :
    k.layout = .node whole fields →
    fields[i]? = some f →
    items[i]? = some v →
    Expects k (.array items) f.kind v
  | content {k variants v} {variant : Variant k.Value} :
    k.layout = .choice variants →
    variant ∈ variants →
    Expects k (.tagged variant.name v) variant.kind v
  | component {k fields v} {f : Field k.Value} {i : Nat} {items : List Json} :
    k.layout = .tuple fields →
    fields[i]? = some f →
    items[i]? = some v →
    Expects k (.array items) f.kind v
  | item {k kind values v} {items : List Json} :
    k.layout = .row kind values →
    v ∈ items →
    Expects k (.array items) kind v
  | present {k kind value? v} :
    k.layout = .optional kind value? →
    v ≠ .null →
    Expects k v kind v

/-- The value has a defect as a value of the kind: a field is repeated, or left out though it may
not be missing, or an array has too many items; there is not exactly one variant, or it has an
unknown name; or a number, a text or a truth value is none, or not in the range for its place. -/
inductive Defect : Kind → Json → Prop where
  | repeated {k whole fields ms} {f : Field k.Value} :
    k.layout = .node whole fields →
    f ∈ fields →
    1 < ms.countP (·.1 == f.name) →
    Defect k (.object ms)
  | omitted {k whole fields ms} {f : Field k.Value} :
    k.layout = .node whole fields →
    f ∈ fields →
    f.kind.absent? = none →
    f.name ∉ ms.map Prod.fst →
    Defect k (.object ms)
  | short {k whole fields i items} {f : Field k.Value} :
    k.layout = .node whole fields →
    fields[i]? = some f →
    f.kind.absent? = none →
    items.length ≤ i →
    Defect k (.array items)
  | long {k whole fields items} :
    k.layout = .node whole fields →
    fields.length < items.length →
    Defect k (.array items)
  | crowd {k variants ms} :
    k.layout = .choice variants →
    ms.length ≠ 1 →
    Defect k (.object ms)
  | unknown {k variants tag v} :
    k.layout = .choice variants →
    tag ∉ variants.map Variant.name →
    Defect k (.tagged tag v)
  | bare {k variants tag} :
    k.layout = .choice variants →
    Defect k (.string tag)
  | unitCrowd {k name ms} :
    k.layout = .unit name →
    ms.length ≠ 1 →
    Defect k (.object ms)
  | unitUnknown {k name tag v} :
    k.layout = .unit name →
    (∀ v, tag ≠ name v) →
    Defect k (.tagged tag v)
  | unitBare {k name tag} :
    k.layout = .unit name →
    (∀ v, tag ≠ name v) →
    Defect k (.string tag)
  | leaf {k json inRange j} :
    k.layout = .leaf json inRange →
    (∀ v, inRange v → j ≠ json v) →
    Defect k j

/-- Some value of the kind is presented. -/
def IsPresented (noContent : Json → Bool) (k : Kind) (j : Json) : Prop :=
  ∃ v, k.Presents noContent v j

/-! ## Presented values by their layouts -/

section Layouts

variable {noContent : Json → Bool} {k kind : Kind} {j w : Json} {v : k.Value} {whole : Bool}
  {fields : List (Field k.Value)} {variants : List (Variant k.Value)} {name : k.Value → String}
  {values : k.Value → List kind.Value} {value? : k.Value → Option kind.Value}
  {json : k.Value → Json} {inRange : k.Value → Prop}

/-- What presents a node is a node with its parts. -/
lemma Presents.of_node (h : k.Presents noContent v j) (layout : k.layout = .node whole fields) :
    ∃ found : String → Option Json, IsNode (fields.map fun f => (f.name, found f.name)) j ∧
      (∀ f ∈ fields, ∀ w, found f.name = some w → f.kind.IsPresented noContent w) ∧
      ∀ f ∈ fields, found f.name = none → f.kind.absent?.isSome := by
  cases h with
  | node layout' node _ fits missing =>
    cases layout.symm.trans layout'
    exact ⟨_, node, fun f mem w there => ⟨_, fits f mem w there⟩,
      fun f mem none => Option.isSome_of_mem (missing f mem none)⟩
  | _ => grind

/-- What presents a choice presents a content under the name of a variant. -/
lemma Presents.of_choice (h : k.Presents noContent v j) (layout : k.layout = .choice variants) :
    ∃ variant ∈ variants, ∃ w, j = .tagged variant.name w ∧
      variant.kind.IsPresented noContent w := by
  cases h with
  | choice layout' mem some content =>
    cases layout.symm.trans layout'
    exact ⟨_, mem, _, rfl, _, content⟩
  | _ => grind

/-- What presents a unit is its name, or something under its name. -/
lemma Presents.of_unit (h : k.Presents noContent v j) (layout : k.layout = .unit name) :
    j = .string (name v) ∨ ∃ w, j = .tagged (name v) w := by
  cases h with
  | unit layout' =>
    cases layout.symm.trans layout'
    exact .inl rfl
  | tagged layout' =>
    cases layout.symm.trans layout'
    exact .inr ⟨_, rfl⟩
  | _ => grind

/-- What presents a tuple is an array with its fields. -/
lemma Presents.of_tuple (h : k.Presents noContent v j) (layout : k.layout = .tuple fields) :
    ∃ items, j = .array items ∧
      ∀ f w, (f, w) ∈ fields.zip items → f.kind.IsPresented noContent w := by
  cases h with
  | tuple layout' _ fits =>
    cases layout.symm.trans layout'
    exact ⟨_, rfl, fun f w mem => ⟨_, fits f w mem⟩⟩
  | _ => grind

/-- What presents a row is an array with its values. -/
lemma Presents.of_row (h : k.Presents noContent v j) (layout : k.layout = .row kind values) :
    ∃ items, j = .array items ∧ ∀ w ∈ items, kind.IsPresented noContent w := by
  cases h with
  | row layout' length fits =>
    cases layout.symm.trans layout'
    refine ⟨_, rfl, fun w mem => ?_⟩
    obtain ⟨v, beside⟩ := exists_zip_mem length mem
    exact ⟨v, fits v w beside⟩
  | _ => grind

/-- What presents something that may be missing is null or presents it. -/
lemma Presents.of_optional (h : k.Presents noContent v j)
    (layout : k.layout = .optional kind value?) : j = .null ∨ kind.IsPresented noContent j := by
  cases h with
  | null => exact .inl rfl
  | present layout' _ _ fits =>
    cases layout.symm.trans layout'
    exact .inr ⟨_, fits⟩
  | _ => grind

/-- What presents a leaf is its JSON. -/
lemma Presents.of_leaf (h : k.Presents noContent v j) (layout : k.layout = .leaf json inRange) :
    inRange v ∧ j = json v := by
  cases h with
  | leaf layout' within =>
    cases layout.symm.trans layout'
    exact ⟨within, rfl⟩
  | _ => grind

/-! ## What is inside -/

/-- The parts under the names of fields have these names. -/
lemma names_eq (fields : List (Field k.Value)) (found : String → Option Json) :
    (fields.map fun f => (f.name, found f.name)).map Prod.fst = fields.map Field.name := by
  rw [List.map_map]
  rfl

/-- What is expected directly inside a value that is presented is presented as well. -/
theorem IsPresented.inside (h : k.IsPresented noContent j) (inside : k.Expects j kind w) :
    kind.IsPresented noContent w := by
  obtain ⟨v, h⟩ := h
  cases inside with
  | @member _ fields _ f ms layout mem there =>
    obtain ⟨found, node, fits, -⟩ := h.of_node layout
    have known : f.name ∈ (fields.map fun f => (f.name, found f.name)).map Prod.fst :=
      names_eq fields found ▸ List.mem_map_of_mem mem
    obtain ⟨f', mem', part⟩ := List.mem_map.1 (node.mem_parts there known)
    obtain ⟨same, there⟩ := Prod.mk.inj part
    rw [show f'.name = f.name from same] at there
    exact fits f mem w there
  | position layout mem there =>
    obtain ⟨found, node, fits, -⟩ := h.of_node layout
    have part := node.getElem?_items (by rw [List.getElem?_map, mem, Option.map_some])
    exact fits _ (List.mem_of_getElem? mem) w (part.trans there)
  | content layout mem =>
    obtain ⟨variant, mem', w', same, fits⟩ := h.of_choice layout
    obtain ⟨name, rfl⟩ := tagged_inj.1 same
    cases List.inj_on_of_nodup_map (nodup_variants layout) mem mem' name
    exact fits
  | component layout mem there =>
    obtain ⟨items, same, fits⟩ := h.of_tuple layout
    cases same
    exact fits _ w (List.mem_of_getElem? (i := _)
      (by rw [List.getElem?_zip_eq_some]; exact ⟨mem, there⟩))
  | item layout mem =>
    obtain ⟨items, same, fits⟩ := h.of_row layout
    cases same
    exact fits w mem
  | present layout notNull =>
    rcases h.of_optional layout with null | fits
    · exact absurd null notNull
    · exact fits

/-- A value that is presented has no defect. -/
theorem IsPresented.not_defect (h : k.IsPresented noContent j) : ¬ k.Defect j := by
  obtain ⟨v, h⟩ := h
  intro defect
  cases defect with
  -- Each way to be at fault is refuted by what an object or an array of parts must hold.
  | @repeated _ fields ms f layout mem more =>
    obtain ⟨found, node, -⟩ := h.of_node layout
    have names := names_eq fields found
    have known : f.name ∈ (fields.map fun f => (f.name, found f.name)).map Prod.fst :=
      names ▸ List.mem_map_of_mem mem
    exact absurd (node.countP_le (names ▸ nodup_names layout) known) (Nat.not_le_of_lt more)
  | @omitted _ fields ms f layout mem required none =>
    obtain ⟨found, node, -, missing⟩ := h.of_node layout
    cases there : found f.name with
    | some w =>
      have part : (f.name, some w) ∈ fields.map fun f => (f.name, found f.name) :=
        List.mem_map.2 ⟨f, mem, Prod.ext rfl there⟩
      exact none (List.mem_map_of_mem (node.mem_object part))
    | none =>
      have := missing f mem there
      rw [required] at this
      cases this
  | @short _ fields i items f layout mem required outside =>
    obtain ⟨found, node, -, missing⟩ := h.of_node layout
    have part := node.getElem?_items (by rw [List.getElem?_map, mem, Option.map_some])
    have := missing f (List.mem_of_getElem? mem) (part.trans (List.getElem?_eq_none outside))
    rw [required] at this
    cases this
  | @long _ fields items layout more =>
    obtain ⟨found, node, -⟩ := h.of_node layout
    have le := node.length_le
    rw [List.length_map] at le
    exact absurd le (Nat.not_le_of_lt more)
  | crowd layout other =>
    obtain ⟨variant, -, w, same, -⟩ := h.of_choice layout
    cases same
    exact other rfl
  | unknown layout unknown =>
    obtain ⟨variant, mem, w, same, -⟩ := h.of_choice layout
    exact unknown ((tagged_inj.1 same).1 ▸ List.mem_map_of_mem mem)
  | bare layout =>
    obtain ⟨variant, -, w, same, -⟩ := h.of_choice layout
    cases same
  | unitCrowd layout other =>
    rcases h.of_unit layout with same | ⟨w, same⟩
    · cases same
    · cases same
      exact other rfl
  | unitUnknown layout unknown =>
    rcases h.of_unit layout with same | ⟨w, same⟩
    · cases same
    · exact unknown v (tagged_inj.1 same).1
  | unitBare layout unknown =>
    rcases h.of_unit layout with same | ⟨w, same⟩
    · exact unknown v (Json.string.inj same)
    · cases same
  | leaf layout other =>
    obtain ⟨within, same⟩ := h.of_leaf layout
    exact other v within same

end Layouts

end Kind

namespace Document

/-- In the value of a document a value of the kind is expected at some place, and this one is
there. -/
inductive Expected (root : Json) : Kind → Json → Prop where
  | root : Expected root .document root
  | inside {k j kind v} :
    Expected root k j →
    k.Expects j kind v →
    Expected root kind v

/-- At some place in the value of a document there is a defect. -/
def Defective (root : Json) : Prop := ∃ k j, Expected root k j ∧ Kind.Defect k j

variable {noContent : Json → Bool} {k : Kind} {j v : Json} {d : Document}

/-- What stands under the name of a variant is expected to be its content. -/
lemma Expected.content {variants : List (Variant k.Value)} {variant : Variant k.Value}
    {tag : String} (expected : Expected j k (.tagged tag v)) (layout : k.layout = .choice variants)
    (mem : variant ∈ variants) (name : variant.name = tag) : Expected j variant.kind v := by
  subst name
  exact expected.inside (.content layout mem)

/-- However a document is presented, what is expected at each place is presented there. -/
theorem Expected.isPresented (expected : Expected j k v)
    (presents : Kind.document.Presents noContent d j) : k.IsPresented noContent v := by
  induction expected with
  | root => exact ⟨d, presents⟩
  | inside _ inside ih => exact ih.inside inside

/-- What presents a document has no defect at any place. -/
theorem not_defective (presents : Kind.document.Presents noContent d j) : ¬ Defective j := by
  rintro ⟨k, v, expected, defect⟩
  exact (expected.isPresented presents).not_defect defect

end Document

end Monkey
