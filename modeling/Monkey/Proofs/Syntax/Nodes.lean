import Monkey.Syntax
import Monkey.Token
import Mathlib.Tactic.Lemma

/-!
# Nodes of syntax trees

Names, expressions, statements and blocks are the nodes of a tree, and each has its children in the
order in which they are written. A tree is nested if the span of each child lies within that of its
parent, and the spans of siblings come one behind the other. Main statement: `Nests.of_hasNode`.
-/

namespace Monkey

/-- A node of a syntax tree. -/
inductive SyntaxNode where
  | identifier (x : Identifier)
  | expression (e : Expr)
  | statement (s : Stmt)
  | block (b : Block)

namespace SyntaxNode

/-- Where the node stands. -/
def span : SyntaxNode → Span
  | identifier x => x.span
  | expression e => e.span
  | statement s => s.span
  | block b => b.span

/-- What the node is made up of, in the order of the source. -/
def children : SyntaxNode → List SyntaxNode
  | identifier _ => []
  | expression (.literal _ _) => []
  | expression (.identifier x) => [identifier x]
  | expression (.unary _ operand _) => [expression operand]
  | expression (.binary _ left right _) => [expression left, expression right]
  | expression (.conditional condition consequence alternative _) =>
    expression condition :: block consequence :: alternative.toList.map block
  | expression (.function params body _) => params.map identifier ++ [block body]
  | expression (.call callee args _) => expression callee :: args.map expression
  | statement (.letStmt x value _) => [identifier x, expression value]
  | statement (.returnStmt value _) => [expression value]
  | statement (.exprStmt value _) => [expression value]
  | block b => b.statements.map statement

end SyntaxNode

/-- The nodes of a program: its statements and all that they are made up of. -/
inductive Program.HasNode (p : Program) : SyntaxNode → Prop where
  | statement {s} :
    s ∈ p.statements →
    HasNode p (.statement s)
  | child {parent child} :
    HasNode p parent →
    child ∈ parent.children →
    HasNode p child

/-- The span holds a character; it begins where some token does, and ends where some token does. -/
structure Span.OfTokens (ts : List Token) (s : Span) : Prop where
  nonempty : s.start < s.stop
  start : ∃ t ∈ ts, t.span.start = s.start
  stop : ∃ t ∈ ts, t.span.stop = s.stop

/-- The node stands on tokens, its children stand within it, and they do so one behind the other. -/
structure SyntaxNode.WellPlaced (ts : List Token) (node : SyntaxNode) : Prop where
  ofTokens : node.span.OfTokens ts
  within : ∀ child ∈ node.children,
    node.span.start ≤ child.span.start ∧ child.span.stop ≤ node.span.stop
  ordered : node.children.Pairwise fun child child' => child.span.stop ≤ child'.span.start

/-- The node is well placed, and so is all that it is made up of. -/
inductive SyntaxNode.Nests (ts : List Token) : SyntaxNode → Prop where
  | node {node} :
    node.WellPlaced ts →
    (∀ child ∈ node.children, Nests ts child) →
    Nests ts node

variable {ts ts' : List Token} {node : SyntaxNode}

/-- A span on tokens is one on more tokens. -/
lemma Span.OfTokens.mono {s : Span} (h : s.OfTokens ts) (sub : ts ⊆ ts') : s.OfTokens ts' where
  nonempty := h.nonempty
  start := h.start.imp fun _ found => ⟨sub found.1, found.2⟩
  stop := h.stop.imp fun _ found => ⟨sub found.1, found.2⟩

namespace SyntaxNode

/-- A node that nests is well placed. -/
lemma Nests.wellPlaced : node.Nests ts → node.WellPlaced ts
  | .node here _ => here

/-- A node that nests stands on its tokens. -/
lemma Nests.ofTokens (h : node.Nests ts) : node.span.OfTokens ts := h.wellPlaced.ofTokens

/-- The children of a node that nests do. -/
lemma Nests.child : node.Nests ts → ∀ child ∈ node.children, child.Nests ts
  | .node _ inner => inner

/-- A node that nests in tokens does so in more tokens. -/
lemma Nests.mono (h : node.Nests ts) (sub : ts ⊆ ts') : node.Nests ts' := by
  induction h with
  | node here _ ih => exact .node ⟨here.ofTokens.mono sub, here.within, here.ordered⟩ ih

/-- Where all statements of a program are nested, every node is. -/
lemma Nests.of_hasNode {p : Program} (statements : ∀ s ∈ p.statements, Nests ts (.statement s))
    (h : p.HasNode node) : node.Nests ts := by
  induction h with
  | statement mem => exact statements _ mem
  | child _ mem ih => exact ih.child _ mem

end SyntaxNode

end Monkey
