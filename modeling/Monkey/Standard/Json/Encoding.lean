import Monkey.Kind

/-!
# Programs and diagnostics as JSON

Every node is an object under the name of its kind, with its parts in a fixed order; an operator is
a bare name, and an absent alternative is null.
-/

namespace Monkey

/-- A span as JSON. -/
def Span.toJson (s : Span) : Json :=
  .object [("start", .ofNat s.start), ("end", .ofNat s.stop)]

/-- A name as JSON. -/
def Identifier.toJson (x : Identifier) : Json :=
  .object [("name", .string x.name), ("span", x.span.toJson)]

/-- A constant as JSON. -/
def Literal.toJson : Literal → Json
  | .integer value => .tagged "Integer" (.integer value.toInt)
  | .boolean value => .tagged "Bool" (.bool value)
  | .string value => .tagged "String" (.string value)

mutual

/-- An expression as JSON. -/
def Expr.toJson : Expr → Json
  | .literal value span => .tagged "Literal" (.array [value.toJson, span.toJson])
  | .identifier x => .tagged "Identifier" x.toJson
  | .unary op operand span => .tagged "Prefix" <| .object
    [("op", .string op.encodedName), ("operand", operand.toJson), ("span", span.toJson)]
  | .binary op left right span => .tagged "Infix" <| .object
    [("op", .string op.encodedName), ("left", left.toJson), ("right", right.toJson),
      ("span", span.toJson)]
  | .conditional condition consequence none span => .tagged "If" <| .object
    [("condition", condition.toJson), ("consequence", consequence.toJson),
      ("alternative", .null), ("span", span.toJson)]
  | .conditional condition consequence (some alternative) span => .tagged "If" <| .object
    [("condition", condition.toJson), ("consequence", consequence.toJson),
      ("alternative", alternative.toJson), ("span", span.toJson)]
  | .function params body span => .tagged "Function" <| .object
    [("params", .array (params.map Identifier.toJson)), ("body", body.toJson),
      ("span", span.toJson)]
  | .call callee args span => .tagged "Call" <| .object
    [("callee", callee.toJson), ("args", .array (Expr.listToJson args)), ("span", span.toJson)]

/-- Expressions as JSON, in order. -/
def Expr.listToJson : List Expr → List Json
  | [] => []
  | e :: others => e.toJson :: Expr.listToJson others

/-- A statement as JSON. -/
def Stmt.toJson : Stmt → Json
  | .letStmt x value span => .tagged "Let" <| .object
    [("name", x.toJson), ("value", value.toJson), ("span", span.toJson)]
  | .returnStmt value span => .tagged "Return" <| .object
    [("value", value.toJson), ("span", span.toJson)]
  | .exprStmt value span => .tagged "Expr" <| .object
    [("expr", value.toJson), ("span", span.toJson)]

/-- Statements as JSON, in order. -/
def Stmt.listToJson : List Stmt → List Json
  | [] => []
  | s :: others => s.toJson :: Stmt.listToJson others

/-- A block as JSON. -/
def Block.toJson : Block → Json
  | ⟨statements, span⟩ => .object
    [("statements", .array (Stmt.listToJson statements)), ("span", span.toJson)]

end

/-- A document as JSON. -/
def Document.toJson (d : Document) : Json :=
  .object [("ast_version", .ofNat d.version.toNat),
    ("statements", .array (Stmt.listToJson d.program.statements))]

/-- A diagnostic as JSON; without a hint there is no member for it. -/
def Diagnostic.toJson (d : Diagnostic) : Json :=
  .object <| [
    ("diag_version", .ofNat d.version.toNat),
    ("code", .string d.code),
    ("message", .string d.message),
    ("span", d.span.toJson),
    ("file", .string d.file),
    ("line", .ofNat d.line),
    ("column", .ofNat d.column),
    ("length", .ofNat d.length),
    ("snippet", .string d.snippet),
    ("label", .string d.label)]
    ++ (match d.help with
      | none => []
      | some help => [("help", .string help)])

end Monkey
