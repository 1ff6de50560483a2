import Monkey.Standard.Json
import Monkey.Proofs.Json.Laws
import Monkey.Proofs.Standard.Json.Parts
import Monkey.Proofs.Text.Numeral

/-!
# Codecs follow the layouts

Each codec of the standard library writes a value as the layout of its kind says, and reads exactly
the JSON that the layout says is read. There is one lemma for each way that a layout can be made,
and one case for each kind. Main statements: `Kind.writes_toJson` and `Kind.ofJson?_eq_some_iff`.
-/

namespace Monkey

open Json (Inner partsOf isNode_of_fields? innerItems innerItems_val tagged tagged_inj elements?
  unitVariant? variant? isNoContent)

/-! ## Writing -/

/-- A row of statements is written one by one. -/
lemma Stmt.listToJson_eq_map : ∀ (ss : List Stmt), Stmt.listToJson ss = ss.map Stmt.toJson
  | [] => by rw [Stmt.listToJson, List.map_nil]
  | _ :: ss => by rw [Stmt.listToJson, listToJson_eq_map ss, List.map_cons]

/-- A row of expressions is written one by one. -/
lemma Expr.listToJson_eq_map : ∀ (es : List Expr), Expr.listToJson es = es.map Expr.toJson
  | [] => by rw [Expr.listToJson, List.map_nil]
  | _ :: es => by rw [Expr.listToJson, listToJson_eq_map es, List.map_cons]

namespace Kind

/-- What is written under the name of a variant is what the kind of the content is written as. -/
lemma writes_variant {α : Type} {v : α} {variants : List (Variant α)} {j : Json}
    (i : Fin variants.length) (content : variants[i].kind.Value)
    (found : variants[i].content? v = some content)
    (same : j = tagged variants[i].name (toJson variants[i].kind content)) :
    Layout.Writes toJson v (.choice variants) j :=
  same ▸ .choice (List.getElem_mem _) found

/-- A statement is written as its layout says. -/
lemma writes_statement (s : Stmt) : statement.layout.Writes toJson s s.toJson := by
  rw [layout]
  cases s with
  | letStmt x value place => exact writes_variant 0 (x, value, place) rfl rfl
  | returnStmt value place => exact writes_variant 1 (value, place) rfl rfl
  | exprStmt value place => exact writes_variant 2 (value, place) rfl rfl

/-- An expression is written as its layout says. -/
lemma writes_expression (e : Expr) : expression.layout.Writes toJson e e.toJson := by
  rw [layout]
  cases e with
  | literal value place => exact writes_variant 0 (value, place) rfl rfl
  | identifier x => exact writes_variant 1 x rfl rfl
  | unary op operand place => exact writes_variant 2 (op, operand, place) rfl rfl
  | binary op left right place => exact writes_variant 3 (op, left, right, place) rfl rfl
  | conditional condition consequence other place =>
    refine writes_variant 4 (condition, consequence, other, place) rfl ?_
    cases other <;> rfl
  | function params body place => exact writes_variant 5 (params, body, place) rfl rfl
  | call callee args place => exact writes_variant 6 (callee, args, place) rfl rfl

/-- A constant is written as its layout says. -/
lemma writes_literal (l : Literal) : literal.layout.Writes toJson l l.toJson := by
  rw [layout]
  cases l with
  | integer value => exact writes_variant 0 value rfl rfl
  | boolean value => exact writes_variant 1 value rfl rfl
  | string value => exact writes_variant 2 value rfl rfl

/-- A list is written as the array of its values. -/
lemma writes_row {α : Type} {v : α} {kind : Kind} {items : α → List kind.Value} {js : List Json}
    (same : js = (items v).map (toJson kind)) :
    Layout.Writes toJson v (.row kind items) (.array js) :=
  same ▸ .row

/-- What may be missing is written as its kind, or as nothing. -/
lemma writes_optional {α : Type} {v : α} {kind : Kind} {value? : α → Option kind.Value} :
    Layout.Writes toJson v (.optional kind value?) ((value? v).elim .null (toJson kind)) := by
  cases there : value? v with
  | none => exact .null there
  | some w => exact .present there

/-- A value is written as the layout of its kind says. -/
theorem writes_toJson (k : Kind) (v : k.Value) : k.layout.Writes toJson v (k.toJson v) := by
  cases k with
  | document | identifier | letNode | returnNode | exprNode | prefixNode | infixNode
  | functionNode | callNode | span => exact .node
  | block =>
    obtain ⟨_, _⟩ := v
    exact .node
  | ifNode => obtain ⟨_, _, _ | _, _⟩ := v <;> exact .node
  | diagnostic => obtain ⟨_, _, _, _, _, _, _, _, _, _, _ | _⟩ := v <;> exact .node
  | statements => exact writes_row (Stmt.listToJson_eq_map v)
  | arguments => exact writes_row (Expr.listToJson_eq_map v)
  | parameters => exact writes_row rfl
  | statement => exact writes_statement v
  | expression => exact writes_expression v
  | literal => exact writes_literal v
  | constant => exact .tuple
  | alternative | hint => exact writes_optional
  | prefixOp | infixOp => exact .unit
  | word32 | word64 | integer | boolean | text => exact .leaf

/-! ## Reading -/

section Nodes

variable {α : Type} {noContent : Json → Bool} {decode? : (k : Kind) → Json → Option k.Value}
  {v : α} {whole : Bool} {fields : List (Field α)} {f : Field α} {j : Json}

/-- The value of a field that is looked up under its name. -/
lemma reads_found_iff {found : Option (Inner j)} :
    f.Reads decode? v (found.map Subtype.val) ↔
      found.elim f.kind.absent? (fun w => decode? f.kind w.1) = some (f.get v) := by
  cases found with
  | none => exact ⟨fun | .missing absent => absent, .missing⟩
  | some w => exact ⟨fun | .found read => read, .found⟩

/-- A node is read by what is found under the names of its fields. -/
lemma reads_node_iff (nodup : (fields.map Field.name).Nodup) :
    Layout.Reads noContent decode? v (.node whole fields) j ↔ (whole || j.isObject) ∧
      ∃ part, j.fields? (fields.map Field.name) = some part ∧ ∀ f ∈ fields,
        (part f.name).elim f.kind.absent? (fun w => decode? f.kind w.1) = some (f.get v) := by
  have parts (found : String → Option Json) :
      fields.map (fun f => (f.name, found f.name)) = partsOf (fields.map Field.name) found := by
    rw [partsOf, List.map_map]
    rfl
  constructor
  · rintro ⟨⟩
    rename_i found fits form node
    rw [parts found] at node
    obtain ⟨part, holds, same⟩ := node.exists_fields? nodup
    refine ⟨form, part, holds, fun f mem => reads_found_iff.1 ?_⟩
    rw [same f.name (List.mem_map_of_mem mem)]
    exact fits f mem
  · rintro ⟨form, part, holds, fits⟩
    obtain ⟨found, same⟩ : ∃ found : String → Option Json,
      (fun key => (part key).map Subtype.val) = found := ⟨_, rfl⟩
    have node := isNode_of_fields? nodup holds
    rw [same, ← parts] at node
    refine .node node form fun f mem => ?_
    rw [← same]
    exact reads_found_iff.2 (fits f mem)

/-- A node that may stand alone is read if the values of its fields are found. -/
lemma bind_fields?_iff {make : (String → Option (Inner j)) → Option α}
    {keys : List String} (names : fields.map Field.name = keys) (nodup : keys.Nodup)
    (read : ∀ part, make part = some v ↔ ∀ f ∈ fields,
      (part f.name).elim f.kind.absent? (fun w => decode? f.kind w.1) = some (f.get v)) :
    (j.fields? keys).bind make = some v ↔
      Layout.Reads noContent decode? v (.node true fields) j := by
  subst names
  rw [reads_node_iff nodup, Option.bind_eq_some_iff, Bool.true_or, eq_self, true_and]
  exact exists_congr fun part => and_congr_right fun _ => read part

end Nodes

section Records

/-! A record is put together from its parts, and from nothing else. -/

variable {α β γ δ ρ : Type} {a? : Option α} {b? : Option β} {c? : Option γ} {d? : Option δ} {r : ρ}
  {a : ρ → α} {b : ρ → β} {c : ρ → γ} {d : ρ → δ}

/-- Two parts read together give a value exactly if each gives its part of the value. -/
lemma two_iff {make : α → β → ρ} (whole : make (a r) (b r) = r)
    (parts : ∀ x y, a (make x y) = x ∧ b (make x y) = y) :
    (a?.bind fun x => b?.bind fun y => some (make x y)) = some r ↔
      a? = some (a r) ∧ b? = some (b r) := by
  simp only [Option.bind_eq_some_iff, Option.some.injEq]
  constructor
  · rintro ⟨x, rfl, y, rfl, rfl⟩
    obtain ⟨first, second⟩ := parts x y
    exact ⟨by rw [first], by rw [second]⟩
  · rintro ⟨rfl, rfl⟩
    exact ⟨_, rfl, _, rfl, whole⟩

/-- Three parts read together give a value exactly if each gives its part of the value. -/
lemma three_iff {make : α → β → γ → ρ} (whole : make (a r) (b r) (c r) = r)
    (parts : ∀ x y z, a (make x y z) = x ∧ b (make x y z) = y ∧ c (make x y z) = z) :
    (a?.bind fun x => b?.bind fun y => c?.bind fun z => some (make x y z)) = some r ↔
      a? = some (a r) ∧ b? = some (b r) ∧ c? = some (c r) := by
  simp only [Option.bind_eq_some_iff, Option.some.injEq]
  constructor
  · rintro ⟨x, rfl, y, rfl, z, rfl, rfl⟩
    obtain ⟨first, second, third⟩ := parts x y z
    exact ⟨by rw [first], by rw [second], by rw [third]⟩
  · rintro ⟨rfl, rfl, rfl⟩
    exact ⟨_, rfl, _, rfl, _, rfl, whole⟩

/-- Four parts read together give a value exactly if each gives its part of the value. -/
lemma four_iff {make : α → β → γ → δ → ρ} (whole : make (a r) (b r) (c r) (d r) = r)
    (parts : ∀ w x y z, a (make w x y z) = w ∧ b (make w x y z) = x ∧ c (make w x y z) = y ∧
      d (make w x y z) = z) :
    (a?.bind fun w => b?.bind fun x => c?.bind fun y => d?.bind fun z => some (make w x y z)) =
      some r ↔ a? = some (a r) ∧ b? = some (b r) ∧ c? = some (c r) ∧ d? = some (d r) := by
  simp only [Option.bind_eq_some_iff, Option.some.injEq]
  constructor
  · rintro ⟨w, rfl, x, rfl, y, rfl, z, rfl, rfl⟩
    obtain ⟨first, second, third, fourth⟩ := parts w x y z
    exact ⟨by rw [first], by rw [second], by rw [third], by rw [fourth]⟩
  · rintro ⟨rfl, rfl, rfl, rfl⟩
    exact ⟨_, rfl, _, rfl, _, rfl, _, rfl, whole⟩

end Records

/-! Each other way that a layout is made has an inversion lemma of its own. -/

section Inversion

variable {α : Type} {v : α} {j : Json} {kind : Kind}

/-- A row is read exactly if it is read item by item. -/
lemma mapM_eq_some_iff {β γ : Type} {f : β → Option γ} {bs : List β} {cs : List γ} :
    bs.mapM f = some cs ↔ List.Forall₂ (fun c b => f b = some c) cs bs := by
  induction bs generalizing cs with
  | nil => simp [eq_comm]
  | cons b bs ih =>
    simp only [List.mapM_cons, Option.pure_def, Option.bind_eq_bind, Option.bind_eq_some_iff,
      Option.some.injEq, ih, List.forall₂_cons_right_iff]
    constructor
    · rintro ⟨c, first, cs, more, rfl⟩
      exact ⟨c, cs, first, more, rfl⟩
    · rintro ⟨c, cs, first, more, rfl⟩
      exact ⟨c, first, cs, more, rfl⟩

/-- A row is read by reading each item of an array. -/
lemma row_eq_some_iff (items : α → List kind.Value) :
    row (fun kind (w : Inner j) => ofJson? kind w.1) kind = some (items v) ↔
      Layout.Reads isNoContent ofJson? v (.row kind items) j := by
  have invert : Layout.Reads isNoContent ofJson? v (.row kind items) j ↔
      ∃ js, j = .array js ∧ List.Forall₂ (fun w j => ofJson? kind j = some w) (items v) js :=
    ⟨fun | .row each => ⟨_, rfl, each⟩, fun ⟨_, same, each⟩ => same ▸ .row each⟩
  rw [invert]
  cases j with
  | array js =>
    have each : List.Forall₂ (fun w (j : Inner (.array js)) => ofJson? kind j.1 = some w) (items v)
        (innerItems js) ↔ List.Forall₂ (fun w j => ofJson? kind j = some w) (items v) js := by
      have values := List.forall₂_map_right_iff (l := items v) (u := innerItems js)
        (f := Subtype.val) (R := fun w j => ofJson? kind j = some w)
      rw [← values, innerItems_val]
    rw [row, elements?, Option.bind_some, mapM_eq_some_iff, each]
    simp
  | _ => simp [row, elements?]

/-- A variant without content is read by its name. -/
lemma reads_unit_iff {decode? : (k : Kind) → Json → Option k.Value} {name : α → String} :
    Layout.Reads isNoContent decode? v (.unit name) j ↔ j.unitVariant? = some (name v) := by
  refine ⟨fun | .unit => rfl | .tagged empty => if_pos empty, fun found => ?_⟩
  unfold unitVariant? at found
  split at found
  · cases found
    exact .unit
  · split at found
    · cases found
      exact .tagged ‹_›
    · cases found
  · cases found

/-- A choice is read by the variant whose name stands above the content. -/
lemma reads_choice_iff {decode? : (k : Kind) → Json → Option k.Value}
    {variants : List (Variant α)} :
    Layout.Reads noContent decode? v (.choice variants) j ↔
      ∃ found, j.variant? = some found ∧ ∃ variant ∈ variants, variant.name = found.1 ∧
        ∃ w, variant.content? v = some w ∧ decode? variant.kind found.2.1 = some w := by
  refine ⟨fun | .choice mem same read => ⟨_, rfl, _, mem, rfl, _, same, read⟩, ?_⟩
  rintro ⟨⟨tag, content⟩, found, variant, mem, rfl, w, same, read⟩
  unfold variant? at found
  split at found
  · cases found
    exact .choice mem same read
  · cases found

/-- What may be missing is read as null or as what there is. -/
lemma reads_optional_iff {value? : α → Option kind.Value} :
    Layout.Reads noContent ofJson? v (.optional kind value?) j ↔
      (if j.isNull then some none else (kind.ofJson? j).map some) = some (value? v) := by
  constructor
  · rintro ⟨⟩
    · rename_i none
      rw [none]
      rfl
    · rename_i w same there read
      cases j with
      | null => exact absurd rfl there
      | _ => simp [Json.isNull, read, same]
  · intro found
    cases j with
    | null => exact .null (Option.some.inj found).symm
    | _ =>
      obtain ⟨w, read, same⟩ := Option.map_eq_some_iff.1 found
      exact .present same.symm nofun read

/-- A leaf is read off the JSON that it is written as, and off no other. -/
lemma reads_leaf_iff {decode? : (k : Kind) → Json → Option k.Value} {json : α → Json}
    {inRange : α → Prop} :
    Layout.Reads noContent decode? v (.leaf json inRange) j ↔ inRange v ∧ j = json v :=
  ⟨fun | .leaf fits => ⟨fits, rfl⟩, fun ⟨fits, same⟩ => same ▸ .leaf fits⟩

end Inversion

/-! ### The kinds -/

section Kinds

variable {j : Json}

/-- A value is made of the content of a variant if and only if this is its content. -/
lemma map_eq_some_iff {α β : Type} {read : Option β} {make : β → α} {v : α}
    (content? : α → Option β) (made : ∀ w, content? (make w) = some w)
    (only : ∀ v w, content? v = some w → make w = v) :
    read.map make = some v ↔ ∃ w, content? v = some w ∧ read = some w := by
  rw [Option.map_eq_some_iff]
  constructor
  · rintro ⟨w, read, rfl⟩
    exact ⟨w, made w, read⟩
  · rintro ⟨w, same, read⟩
    exact ⟨w, read, only v w same⟩

/-- A statement is made of the content of the variant that has the name. -/
lemma asStatement_iff {s : Stmt} {tag : String} {content : Inner j} :
    asStatement (fun kind w => ofJson? kind w.1) tag content = some s ↔
      ∃ variant ∈ ([⟨"Let", letNode, Stmt.letParts?⟩, ⟨"Return", returnNode, Stmt.returnParts?⟩,
        ⟨"Expr", exprNode, Stmt.exprParts?⟩] : List (Variant Stmt)), variant.name = tag ∧
        ∃ w, variant.content? s = some w ∧ ofJson? variant.kind content.1 = some w := by
  simp only [List.mem_cons, List.not_mem_nil, or_false, exists_eq_or_imp, exists_eq_left]
  unfold asStatement
  split <;> try simp only [String.reduceEq, true_and, false_and, or_false, false_or]
  · exact map_eq_some_iff Stmt.letParts? (fun _ => rfl) fun | .letStmt .., _, rfl => rfl
  · exact map_eq_some_iff Stmt.returnParts? (fun _ => rfl) fun | .returnStmt .., _, rfl => rfl
  · exact map_eq_some_iff Stmt.exprParts? (fun _ => rfl) fun | .exprStmt .., _, rfl => rfl
  · simp_all [eq_comm]

/-- An expression is read off a variant by its name exactly if the content of the variant is. -/
lemma asExpression_iff {e : Expr} {tag : String} {content : Inner j} :
    asExpression (fun kind w => ofJson? kind w.1) tag content = some e ↔
      ∃ variant ∈ ([⟨"Literal", constant, Expr.literalParts?⟩,
        ⟨"Identifier", identifier, Expr.identifier?⟩, ⟨"Prefix", prefixNode, Expr.unaryParts?⟩,
        ⟨"Infix", infixNode, Expr.binaryParts?⟩, ⟨"If", ifNode, Expr.conditionalParts?⟩,
        ⟨"Function", functionNode, Expr.functionParts?⟩, ⟨"Call", callNode, Expr.callParts?⟩] :
          List (Variant Expr)), variant.name = tag ∧
        ∃ w, variant.content? e = some w ∧ ofJson? variant.kind content.1 = some w := by
  simp only [List.mem_cons, List.not_mem_nil, or_false, exists_eq_or_imp, exists_eq_left]
  unfold asExpression
  split <;> try simp only [String.reduceEq, true_and, false_and, or_false, false_or]
  · exact map_eq_some_iff Expr.literalParts? (fun _ => rfl) fun | .literal .., _, rfl => rfl
  · exact map_eq_some_iff Expr.identifier? (fun _ => rfl) fun | .identifier .., _, rfl => rfl
  · exact map_eq_some_iff Expr.unaryParts? (fun _ => rfl) fun | .unary .., _, rfl => rfl
  · exact map_eq_some_iff Expr.binaryParts? (fun _ => rfl) fun | .binary .., _, rfl => rfl
  · exact map_eq_some_iff Expr.conditionalParts? (fun _ => rfl)
      fun | .conditional .., _, rfl => rfl
  · exact map_eq_some_iff Expr.functionParts? (fun _ => rfl) fun | .function .., _, rfl => rfl
  · exact map_eq_some_iff Expr.callParts? (fun _ => rfl) fun | .call .., _, rfl => rfl
  · simp_all [eq_comm]

/-- A constant is read off a variant by its name exactly if the content of the variant is. -/
lemma asLiteral_iff {l : Literal} {tag : String} {content : Inner j} :
    asLiteral (fun kind w => ofJson? kind w.1) tag content = some l ↔
      ∃ variant ∈ ([⟨"Integer", integer, Literal.integer?⟩, ⟨"Bool", boolean, Literal.boolean?⟩,
        ⟨"String", text, Literal.string?⟩] : List (Variant Literal)), variant.name = tag ∧
        ∃ w, variant.content? l = some w ∧ ofJson? variant.kind content.1 = some w := by
  simp only [List.mem_cons, List.not_mem_nil, or_false, exists_eq_or_imp, exists_eq_left]
  unfold asLiteral
  split <;> try simp only [String.reduceEq, true_and, false_and, or_false, false_or]
  · exact map_eq_some_iff Literal.integer? (fun _ => rfl) fun | .integer .., _, rfl => rfl
  · exact map_eq_some_iff Literal.boolean? (fun _ => rfl) fun | .boolean .., _, rfl => rfl
  · exact map_eq_some_iff Literal.string? (fun _ => rfl) fun | .string .., _, rfl => rfl
  · simp_all [eq_comm]

/-- A prefix operator is read off its own name only. -/
lemma prefixOp_ofName?_iff {op : PrefixOp} {name : String} :
    PrefixOp.ofName? name = some op ↔ name = op.encodedName := by
  unfold PrefixOp.ofName?
  split <;> cases op <;> simp_all [PrefixOp.encodedName]

/-- An infix operator is read off its own name only. -/
lemma infixOp_ofName?_iff {op : InfixOp} {name : String} :
    InfixOp.ofName? name = some op ↔ name = op.encodedName := by
  unfold InfixOp.ofName?
  split <;> cases op <;> simp_all [InfixOp.encodedName]

/-- A constant is read from an array of two items. -/
lemma constant_iff {v : constant.Value} :
    ofJson? constant j = some v ↔ constant.layout.Reads isNoContent ofJson? v j := by
  rw [layout, ofJson?, assemble]
  constructor
  · intro read
    split at read
    · rename_i items value place found
      cases j with
      | array js =>
        have two := congrArg (List.map Subtype.val) (Option.some.inj found)
        rw [innerItems_val] at two
        rw [two]
        obtain ⟨first, second⟩ := (two_iff rfl fun _ _ => ⟨rfl, rfl⟩).1 read
        exact .tuple (.cons first (.cons second .nil))
      | _ => cases found
    · cases read
  · rintro (_ | _ | _ | _ | ⟨_ | ⟨first, _ | ⟨second, ⟨⟩⟩⟩⟩)
    exact (two_iff rfl fun _ _ => ⟨rfl, rfl⟩).2 ⟨first, second⟩

/-- A block is read as an object or as an array of its two fields. -/
lemma asBlock_iff {v : block.Value} :
    asBlock (fun kind (w : Inner j) => ofJson? kind w.1) = some v ↔
      block.layout.Reads isNoContent ofJson? v j := by
  refine bind_fields?_iff rfl (by decide) fun part => ?_
  simp only [List.forall_mem_cons, List.not_mem_nil, false_implies, implies_true, and_true]
  exact two_iff (by cases v; rfl) fun _ _ => ⟨rfl, rfl⟩

/-- A document is read as an object only. -/
lemma document_iff {v : document.Value} :
    ofJson? document j = some v ↔ document.layout.Reads isNoContent ofJson? v j := by
  rw [layout, ofJson?, assemble]
  refine Iff.trans ?_ (reads_node_iff (by decide)).symm
  rw [Bool.false_or]
  split
  · rename_i form
    rw [form, eq_self, true_and]
    simp only [List.forall_mem_cons, List.not_mem_nil, false_implies, implies_true, and_true]
    exact Option.bind_eq_some_iff.trans <| exists_congr fun _ => and_congr_right fun _ =>
      two_iff rfl fun _ _ => ⟨rfl, rfl⟩
  · rename_i form
    simp [form]

/-- A diagnostic is read exactly if its parts are. -/
lemma asDiagnostic_iff {v : diagnostic.Value} :
    asDiagnostic (fun kind (w : Inner j) => ofJson? kind w.1) = some v ↔
      diagnostic.layout.Reads isNoContent ofJson? v j := by
  refine bind_fields?_iff rfl (by decide) fun part => ?_
  simp only [List.forall_mem_cons, List.not_mem_nil, false_implies, implies_true, and_true,
    bind, Option.bind_eq_some_iff, Option.pure_def, Option.some.injEq]
  constructor
  · rintro ⟨_, version, _, code, _, message, _, place, _, file, _, line, _, column, _, length,
      _, snippet, _, label, _, help, rfl⟩
    exact ⟨version, code, message, place, file, line, column, length, snippet, label, help⟩
  · rintro ⟨version, code, message, place, file, line, column, length, snippet, label, help⟩
    exact ⟨_, version, _, code, _, message, _, place, _, file, _, line, _, column, _, length,
      _, snippet, _, label, _, help, rfl⟩

/-- A number of so many bits is read off a whole number that is below their count. -/
lemma word?_eq_some_iff {bits n : Nat} :
    j.word? bits = some n ↔ n < Numeral.words bits ∧ j = .ofNat n := by
  cases j with
  | integer m =>
    simp only [Json.word?, Json.ofNat, Option.ite_none_right_eq_some, Option.some.injEq,
      Json.integer.injEq]
    omega
  | _ => simp [Json.word?, Json.ofNat]

/-- A signed number is read off the whole number that it is. -/
lemma int64?_eq_some_iff {n : Int64} : j.int64? = some n ↔ j = .integer n.toInt := by
  cases j with
  | integer m =>
    rw [Json.int64?, Json.integer.injEq]
    refine ⟨fun read => (Numeral.toInt_of_toInt64? read).symm, fun same => ?_⟩
    rw [same, Numeral.toInt64?_toInt]
  | _ => simp [Json.int64?]

/-- JSON is read as a value of a kind if and only if the layout of the kind says so. -/
theorem ofJson?_eq_some_iff (k : Kind) (v : k.Value) (j : Json) :
    ofJson? k j = some v ↔ k.layout.Reads isNoContent ofJson? v j := by
  cases k with
  -- Nodes differ in how many fields they have, choices in how the content is put into the value.
  | document => exact document_iff
  | diagnostic =>
    rw [ofJson?, assemble]
    exact asDiagnostic_iff
  | block =>
    rw [ofJson?, assemble]
    exact asBlock_iff
  | constant => exact constant_iff
  | returnNode | exprNode | identifier | span =>
    rw [layout, ofJson?, assemble]
    refine bind_fields?_iff rfl (by decide) fun part => ?_
    simp only [List.forall_mem_cons, List.not_mem_nil, false_implies, implies_true, and_true]
    exact two_iff rfl fun _ _ => ⟨rfl, rfl⟩
  | letNode | prefixNode | functionNode | callNode =>
    rw [layout, ofJson?, assemble]
    refine bind_fields?_iff rfl (by decide) fun part => ?_
    simp only [List.forall_mem_cons, List.not_mem_nil, false_implies, implies_true, and_true]
    exact three_iff rfl fun _ _ _ => ⟨rfl, rfl, rfl⟩
  | infixNode | ifNode =>
    rw [layout, ofJson?, assemble]
    refine bind_fields?_iff rfl (by decide) fun part => ?_
    simp only [List.forall_mem_cons, List.not_mem_nil, false_implies, implies_true, and_true]
    exact four_iff rfl fun _ _ _ _ => ⟨rfl, rfl, rfl, rfl⟩
  | statements | parameters | arguments =>
    rw [layout, ofJson?, assemble]
    exact row_eq_some_iff fun values => values
  | statement =>
    rw [layout, ofJson?, assemble]
    refine (Option.bind_eq_some_iff.trans ?_).trans reads_choice_iff.symm
    exact exists_congr fun _ => and_congr_right fun _ => asStatement_iff
  | expression =>
    rw [layout, ofJson?, assemble]
    refine (Option.bind_eq_some_iff.trans ?_).trans reads_choice_iff.symm
    exact exists_congr fun _ => and_congr_right fun _ => asExpression_iff
  | literal =>
    rw [layout, ofJson?, assemble]
    refine (Option.bind_eq_some_iff.trans ?_).trans reads_choice_iff.symm
    exact exists_congr fun _ => and_congr_right fun _ => asLiteral_iff
  | alternative =>
    rw [layout, ofJson?, assemble]
    refine Iff.trans ?_ reads_optional_iff.symm
    rw [ofJson?, assemble]
  | hint =>
    rw [layout, ofJson?, assemble]
    refine Iff.trans ?_ reads_optional_iff.symm
    rw [ofJson?, assemble]
  | prefixOp =>
    rw [layout, ofJson?, assemble, reads_unit_iff, Option.bind_eq_some_iff]
    simp [prefixOp_ofName?_iff]
  | infixOp =>
    rw [layout, ofJson?, assemble, reads_unit_iff, Option.bind_eq_some_iff]
    simp [infixOp_ofName?_iff]
  | word32 =>
    rw [layout, ofJson?, assemble, reads_leaf_iff, Option.map_eq_some_iff]
    simp only [word?_eq_some_iff, true_and]
    constructor
    · rintro ⟨n, ⟨small, rfl⟩, rfl⟩
      rw [UInt32.toNat_ofNat_of_lt' small]
    · rintro rfl
      exact ⟨_, ⟨UInt32.toNat_lt _, rfl⟩, UInt32.ofNat_toNat⟩
  | word64 =>
    rw [layout, ofJson?, assemble, reads_leaf_iff]
    exact word?_eq_some_iff
  | integer =>
    rw [layout, ofJson?, assemble, reads_leaf_iff, true_and]
    exact int64?_eq_some_iff
  | boolean =>
    rw [layout, ofJson?, assemble, reads_leaf_iff]
    cases j <;> simp [Json.bool?]
  | text =>
    rw [layout, ofJson?, assemble, reads_leaf_iff]
    cases j <;> simp [Json.text?]

end Kinds

end Kind

end Monkey
