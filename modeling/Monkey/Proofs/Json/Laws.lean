import Monkey.Json.Library
import Monkey.Proofs.Json.Nodes
import Monkey.Proofs.Json.Texts

/-!
# What is known of the library for JSON

The library and the codecs are no part of the program, but their behaviour is documented, and these
are the laws that it is documented by. A codec writes a value, and reads it, one level at a time, in
the way that the layout of its kind says; what is inside is left to the codecs of other kinds. A
text is read if it is one of the texts of a value, and what is written for a value is one of them.
-/

namespace Monkey

open Json

/-! ## Layouts -/

section Layouts

variable {α : Type}

/-- The part that is written for a field. -/
def Field.part (encode : (k : Kind) → k.Value → Json) (v : α) (f : Field α) : Part :=
  (f.name, if f.skips v then none else some (encode f.kind (f.get v)))

/-- The JSON is what the layout has written for the value. -/
inductive Layout.Writes (encode : (k : Kind) → k.Value → Json) (v : α) :
    Layout α → Json → Prop where
  /-- The object of the fields, in their order. -/
  | node {whole fields} :
    Writes encode v (.node whole fields) (.object (membersOf (fields.map (Field.part encode v))))
  /-- The content under the name of the variant. -/
  | choice {variants} {variant : Variant α} {content} :
    variant ∈ variants →
    variant.content? v = some content →
    Writes encode v (.choice variants) (.tagged variant.name (encode variant.kind content))
  /-- The name of the variant. -/
  | unit {name} : Writes encode v (.unit name) (.string (name v))
  /-- The array of the fields. -/
  | tuple {fields} :
    Writes encode v (.tuple fields) (.array (fields.map fun f => encode f.kind (f.get v)))
  /-- The array of the values. -/
  | row {kind items} : Writes encode v (.row kind items) (.array ((items v).map (encode kind)))
  /-- Null for nothing. -/
  | null {kind value?} :
    value? v = none →
    Writes encode v (.optional kind value?) .null
  /-- What there is. -/
  | present {kind value? w} :
    value? v = some w →
    Writes encode v (.optional kind value?) (encode kind w)
  /-- The number, the text or the truth value. -/
  | leaf {json inRange} : Writes encode v (.leaf json inRange) (json v)

/-- What is found for a field reads as its value; where nothing is found, it is the value that the
field has if it is missing. -/
inductive Field.Reads (decode? : (k : Kind) → Json → Option k.Value) (v : α) (f : Field α) :
    Option Json → Prop where
  | found {j} :
    decode? f.kind j = some (f.get v) →
    Reads decode? v f (some j)
  | missing :
    f.kind.absent? = some (f.get v) →
    Reads decode? v f none

/-- The JSON reads as the value by the layout. -/
inductive Layout.Reads (noContent : Json → Bool) (decode? : (k : Kind) → Json → Option k.Value)
    (v : α) : Layout α → Json → Prop where
  /-- The node of what is found for the fields. -/
  | node {whole fields j} {found : String → Option Json} :
    IsNode (fields.map fun f => (f.name, found f.name)) j →
    (whole || j.isObject) →
    (∀ f ∈ fields, f.Reads decode? v (found f.name)) →
    Reads noContent decode? v (.node whole fields) j
  /-- The content under the name of one variant. -/
  | choice {variants} {variant : Variant α} {content j} :
    variant ∈ variants →
    variant.content? v = some content →
    decode? variant.kind j = some content →
    Reads noContent decode? v (.choice variants) (.tagged variant.name j)
  /-- The name of the variant. -/
  | unit {name} : Reads noContent decode? v (.unit name) (.string (name v))
  /-- The name of the variant with what is taken for no content. -/
  | tagged {name j} :
    noContent j →
    Reads noContent decode? v (.unit name) (.tagged (name v) j)
  /-- As many items as there are fields. -/
  | tuple {fields items} :
    List.Forall₂ (fun f j => decode? f.kind j = some (f.get v)) fields items →
    Reads noContent decode? v (.tuple fields) (.array items)
  /-- As many items as there are values. -/
  | row {kind values items} :
    List.Forall₂ (fun w j => decode? kind j = some w) (values v) items →
    Reads noContent decode? v (.row kind values) (.array items)
  /-- Null for nothing. -/
  | null {kind value?} :
    value? v = none →
    Reads noContent decode? v (.optional kind value?) .null
  /-- Something else than null for something. -/
  | present {kind value? w j} :
    value? v = some w →
    j ≠ .null →
    decode? kind j = some w →
    Reads noContent decode? v (.optional kind value?) j
  /-- The number, the text or the truth value, if it is in range. -/
  | leaf {json inRange} :
    inRange v →
    Reads noContent decode? v (.leaf json inRange) (json v)

end Layouts

/-! ## Values that are written -/

namespace Json

mutual

/-- All numbers in the value are whole numbers of 64 bits. -/
def IsPlain : Json → Prop
  | .integer n => n.natAbs < Numeral.words 64
  | .decimal _ => False
  | .array items => ArePlain items
  | .object members => MembersArePlain members
  | _ => True

/-- All items are plain. -/
def ArePlain : List Json → Prop
  | [] => True
  | item :: others => item.IsPlain ∧ ArePlain others

/-- All members are plain. -/
def MembersArePlain : List (String × Json) → Prop
  | [] => True
  | (_, value) :: others => value.IsPlain ∧ MembersArePlain others

end

section Plain

variable {items : List Json} {members : List (String × Json)}

/-- An array is plain exactly if its items are. -/
lemma arePlain_iff : ArePlain items ↔ ∀ v ∈ items, v.IsPlain := by
  induction items with
  | nil => simp [ArePlain]
  | cons item others ih => rw [ArePlain, List.forall_mem_cons, ih]

/-- An object is plain exactly if its members are. -/
lemma membersArePlain_iff : MembersArePlain members ↔ ∀ m ∈ members, m.2.IsPlain := by
  induction members with
  | nil => simp [MembersArePlain]
  | cons member others ih => rw [MembersArePlain, List.forall_mem_cons, ih]

end Plain

end Json

/-! ## The laws -/

/-- The documented behaviour of a library for JSON. -/
structure JsonLibrary.Lawful (lib : JsonLibrary) : Prop where
  /-- A value is written as its layout says. -/
  encode : ∀ (k : Kind) (v : k.Value), k.layout.Writes lib.encode v (lib.encode k v)
  /-- JSON is read as a value if and only if the layout of the kind says that it is. -/
  decode : ∀ (k : Kind) (v : k.Value) (j : Json),
    lib.decode? k j = some v ↔ k.layout.Reads lib.isNoContent lib.decode? v j
  /-- The texts of a value are read as the value, unless it is nested too deep. -/
  read : ∀ {j text}, IsText lib.takes j text → lib.admits j → lib.read? text = some j
  /-- Values that are nested too deep are not read. -/
  guard : ∀ {j text}, IsText lib.takes j text → lib.admits j = false → lib.read? text = none
  /-- Nothing but a text of a value is read as the value. -/
  sound : ∀ {j text}, lib.read? text = some j → IsText lib.takes j text
  /-- Plain values are written over several lines. -/
  pretty : ∀ {j}, j.IsPlain → ∃ text, lib.pretty j = .ok text ∧ IsText lib.takes j text
  /-- Plain values are written with nothing between the tokens. -/
  compact : ∀ {j}, j.IsPlain →
    ∃ ts, Tokens lib.takes j ts ∧ lib.compact j = .ok (String.ofList ts.flatten)
  /-- If there is a limit to nesting, it leaves room for a node in a node. -/
  limit : ∀ n ∈ lib.limit, 2 ≤ n

end Monkey
