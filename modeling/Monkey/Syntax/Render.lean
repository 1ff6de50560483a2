import Monkey.Syntax
import Monkey.Text.Numeral

/-!
# Programs as source text

Every syntax tree is written back as source. Operations stand in parentheses, so the text shows what
belongs together and does not lean on precedence.
-/

namespace Monkey

/-- A constant as it is written; a string stands between quotes, character by character. -/
def Literal.render : Literal → String
  | .integer value => Numeral.ofInt value.toInt
  | .boolean true => "true"
  | .boolean false => "false"
  | .string value => "\"" ++ value ++ "\""

/-- The parameters of a function, between its parentheses. -/
def Identifier.renderParams (params : List Identifier) : String :=
  ", ".intercalate (params.map Identifier.name)

mutual

/-- An expression as source. A condition that is an operation brings its own parentheses. -/
def Expr.render : Expr → String
  | .literal value _ => value.render
  | .identifier name => name.name
  | .unary op operand _ => "(" ++ op.text ++ operand.render ++ ")"
  | .binary op left right _ => "(" ++ left.render ++ " " ++ op.text ++ " " ++ right.render ++ ")"
  | .conditional condition consequence alternative _ =>
    let head :=
      if condition.isOperation then "if " ++ condition.render else "if (" ++ condition.render ++ ")"
    match alternative with
    | none => head ++ " " ++ consequence.render
    | some block => head ++ " " ++ consequence.render ++ " else " ++ block.render
  | .function params body _ => "fn(" ++ Identifier.renderParams params ++ ") " ++ body.render
  | .call callee args _ => callee.render ++ "(" ++ Expr.renderArgs args ++ ")"

/-- Arguments, separated by commas. -/
def Expr.renderArgs : List Expr → String
  | [] => ""
  | first :: others => first.render ++ Expr.renderMoreArgs others

/-- The arguments after the first one. -/
def Expr.renderMoreArgs : List Expr → String
  | [] => ""
  | next :: others => ", " ++ next.render ++ Expr.renderMoreArgs others

/-- A statement as source; an expression has no semicolon after it. -/
def Stmt.render : Stmt → String
  | .letStmt name value _ => "let " ++ name.name ++ " = " ++ value.render ++ ";"
  | .returnStmt value _ => "return " ++ value.render ++ ";"
  | .exprStmt value _ => value.render

/-- A block as source, on one line. -/
def Block.render : Block → String
  | ⟨statements, _⟩ => "\x7b" ++ Stmt.renderBody statements ++ " \x7d"

/-- The statements of a block, each after a space. -/
def Stmt.renderBody : List Stmt → String
  | [] => ""
  | stmt :: others => " " ++ stmt.render ++ Stmt.renderBody others

end

/-- A program as source, a line to each statement. -/
def Program.render (program : Program) : String :=
  "\n".intercalate (program.statements.map Stmt.render)

end Monkey
