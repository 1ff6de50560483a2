import Monkey.Syntax
import Monkey.Token

/-!
# Precedence

How tightly the operators hold their operands, and which tokens are operators.
-/

namespace Monkey

/-- The levels of binding strength, the loosest first. -/
inductive Precedence where
  | lowest
  | equality
  | comparison
  | sum
  | product
  | unary
  | call
deriving DecidableEq, Repr

namespace Precedence

/-- The level's place in the order. -/
def rank : Precedence → Nat
  | .lowest => 0
  | .equality => 1
  | .comparison => 2
  | .sum => 3
  | .product => 4
  | .unary => 5
  | .call => 6

instance : LT Precedence := ⟨fun p q => p.rank < q.rank⟩

instance (p q : Precedence) : Decidable (p < q) := inferInstanceAs (Decidable (p.rank < q.rank))

end Precedence

namespace PrefixOp

/-- The operator that a token of this kind is in front of an operand. -/
def ofKind? : TokenKind → Option PrefixOp
  | .minus => some .negate
  | .bang => some .not
  | _ => none

end PrefixOp

namespace InfixOp

/-- The operator that a token of this kind is between two operands. -/
def ofKind? : TokenKind → Option InfixOp
  | .plus => some .add
  | .minus => some .sub
  | .star => some .mul
  | .slash => some .div
  | .less => some .lt
  | .greater => some .gt
  | .equalEqual => some .eq
  | .bangEqual => some .ne
  | _ => none

/-- The level of an operator between two operands. -/
def precedence : InfixOp → Precedence
  | .eq | .ne => .equality
  | .lt | .gt => .comparison
  | .add | .sub => .sum
  | .mul | .div => .product

end InfixOp

end Monkey
