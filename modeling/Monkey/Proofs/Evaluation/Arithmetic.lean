import Mathlib.Algebra.Group.Nat.Defs
import Monkey.Proofs.Evaluation.Layout
import Monkey.Proofs.Parser.RoundTrip

/-!
# Arithmetic

Calculations with words of 64 bits, from the text to the value. A calculation is written with each
operation in parentheses; a negative constant is written as a negation, and the least one, whose
magnitude is no word, as a difference. Running that text gives the value of the calculation over the
integers with every result wrapped around into the range of a word, unless something is divided by
zero. Without divisions nothing is lost by wrapping on the way: the value is that of the unbounded
integers, wrapped around once. Main statement: `Engine.run_calculation`.
-/

namespace Monkey

open Cursor Grammar Text Token

/-- The operators of calculations. -/
inductive Arithmetic where
  | add
  | sub
  | mul
  | div
deriving DecidableEq

namespace Arithmetic

/-- The operator of the language. -/
def infixOp : Arithmetic → InfixOp
  | .add => .add
  | .sub => .sub
  | .mul => .mul
  | .div => .div

/-- What the operator gives for unbounded integers. A quotient is rounded toward zero. -/
def exact : Arithmetic → Int → Int → Int
  | .add, a, b => a + b
  | .sub, a, b => a - b
  | .mul, a, b => a * b
  | .div, a, b => a.tdiv b

/-- What the operator gives for words; nothing if a divisor is zero. -/
def onWords (op : Arithmetic) (a b : Int64) : Option Int64 :=
  if op = .div ∧ b.toInt = 0 then none else some (.ofInt (op.exact a.toInt b.toInt))

end Arithmetic

/-- A calculation with constants of 64 bits. -/
inductive Calculation where
  | constant (n : Int64)
  | negation (operand : Calculation)
  | operation (op : Arithmetic) (left right : Calculation)

namespace Calculation

/-- The integer from -2^63 up to 2^63 that differs from this one by a multiple of 2^64. -/
def wrap (n : Int) : Int := n.bmod (2 ^ 64)

/-- The value with every result wrapped around; none if a divisor is zero. Operands are calculated
from left to right. -/
def value? : Calculation → Option Int
  | constant n => some n.toInt
  | negation operand => do
    let a ← operand.value?
    some (wrap (-a))
  | operation op left right => do
    let a ← left.value?
    let b ← right.value?
    if op = .div ∧ b = 0 then none else some (wrap (op.exact a b))

/-- The value over unbounded integers. -/
def exact : Calculation → Int
  | constant n => n.toInt
  | negation operand => -operand.exact
  | operation op left right => op.exact left.exact right.exact

/-- Nothing is divided. -/
def DivisionFree : Calculation → Prop
  | constant _ => True
  | negation operand => operand.DivisionFree
  | operation op left right => op ≠ .div ∧ left.DivisionFree ∧ right.DivisionFree

/-- A constant as source text. -/
def constantSource (n : Int64) : String :=
  if n = Int64.minValue then "(-9223372036854775807 - 1)"
  else if n < 0 then "(-" ++ Numeral.ofNat n.toInt.natAbs ++ ")"
  else Numeral.ofNat n.toInt.natAbs

/-- A calculation as source text, with each operation in parentheses. -/
def source : Calculation → String
  | constant n => constantSource n
  | negation operand => "(-" ++ operand.source ++ ")"
  | operation op left right =>
    "(" ++ left.source ++ " " ++ op.infixOp.text ++ " " ++ right.source ++ ")"

/-- What the evaluation of a calculation ends with: a word, or the error of a division by zero. -/
def answer : Option Int64 → Except RuntimeError Value
  | some n => .ok (.integer n)
  | none => .error .divisionByZero

/-- What a program that is a calculation comes to. -/
def outcome : Option Int64 → Value
  | some n => .integer n
  | none => .error .divisionByZero

/-- In front of what does not continue a word, the text scans as an expression of the level, and
the evaluation of that comes to the word, or to a division by zero, and does nothing else. -/
def Computes (p : Precedence) (text : List Char) (result : Option Int64) : Prop :=
  ∃ w e, (∀ rest, Stops continuesWord rest → scan (text ++ rest) = w ++ scan rest) ∧
    Derives p w e ∧ e.span = .nowhere ∧
      ∀ call scope, e.eval call scope = Eval.ofExcept (answer result)

section Value

/-- Without divisions, wrapping around on the way costs nothing. -/
lemma value?_of_divisionFree : ∀ {t : Calculation}, t.DivisionFree → t.value? = some (wrap t.exact)
  | constant n, _ => by
    rw [value?, exact, wrap]
    exact congrArg some n.toInt_bmod.symm
  | negation operand, h => by
    rw [value?, value?_of_divisionFree (t := operand) h, Option.bind_eq_bind, Option.bind_some]
    exact congrArg some Int.bmod_neg_bmod
  | operation op left right, ⟨noDiv, inLeft, inRight⟩ => by
    simp only [value?, value?_of_divisionFree inLeft, value?_of_divisionFree inRight,
      Option.bind_eq_bind, Option.bind_some, noDiv, false_and, if_false, exact]
    cases op with
    | add => simp only [Arithmetic.exact, wrap, Int.bmod_add_bmod, Int.add_bmod_bmod]
    | sub => simp only [Arithmetic.exact, wrap, Int.bmod_sub_bmod, Int.sub_bmod_bmod]
    | mul => simp only [Arithmetic.exact, wrap, Int.bmod_mul_bmod, Int.mul_bmod_bmod]
    | div => exact absurd rfl noDiv

/-- On words an operation wraps around what it is exactly, and divides by anything but zero. -/
lemma toInt_onWords (op : Arithmetic) (a b : Int64) :
    (op.onWords a b).map Int64.toInt =
      if op = .div ∧ b.toInt = 0 then none else some (wrap (op.exact a.toInt b.toInt)) := by
  unfold Arithmetic.onWords
  split
  · rfl
  · exact congrArg some Int64.toInt_ofInt

/-- The operators of the language do with words what those of calculations do. -/
lemma apply_infixOp (op : Arithmetic) (a b : Int64) :
    op.infixOp.apply (.integer a) (.integer b) = answer (op.onWords a b) := by
  have word {n : Int64} {z : Int} (h : n.toInt = z.bmod (2 ^ 64)) : n = .ofInt z :=
    Int64.toInt_inj.1 (h.trans Int64.toInt_ofInt.symm)
  cases op with
  | add => exact congrArg (Except.ok ∘ Value.integer) (word (a.toInt_add b))
  | sub => exact congrArg (Except.ok ∘ Value.integer) (word (a.toInt_sub b))
  | mul => exact congrArg (Except.ok ∘ Value.integer) (word (a.toInt_mul b))
  | div =>
    by_cases zero : b = 0
    · simp [Arithmetic.infixOp, InfixOp.apply, InfixOp.applyIntegers, Arithmetic.onWords, zero,
        answer]
    · have zero' : b.toInt ≠ 0 := fun eq => zero (Int64.toInt_inj.1 eq)
      simp only [Arithmetic.infixOp, InfixOp.apply, InfixOp.applyIntegers, zero, if_false,
        Arithmetic.onWords, zero', and_false, answer]
      exact congrArg (Except.ok ∘ Value.integer) (word (a.toInt_div b))

end Value

section Source

variable {p q : Precedence} {text left right : List Char} {result a b : Option Int64} {n : Int64}

/-- Operations on values come one after the other. -/
lemma ofExcept_bind (x : Except RuntimeError Value) (f : Value → Except RuntimeError Value) :
    (do let v ← Eval.ofExcept x; Eval.ofExcept (f v)) = Eval.ofExcept (x >>= f) := by
  cases x <;> rfl

/-- A text computes in a looser context what it computes in a tighter one. -/
lemma Computes.loosen (h : Computes p text result) (le : q.rank ≤ p.rank) :
    Computes q text result := by
  obtain ⟨w, e, scans, derives, others⟩ := h
  exact ⟨w, e, scans, derives.loosen le, others⟩

/-- A word that is not negative is written as its numeral. -/
lemma computes_numeral (h : 0 ≤ n.toInt) :
    Computes .call (Numeral.ofNat n.toInt.natAbs).toList (some n) := by
  have numeral : Numeral.ofNat n.toInt.natAbs = (Literal.integer n).render := by
    obtain ⟨k, eq⟩ := Int.eq_ofNat_of_zero_le h
    rw [Literal.render, eq]
    rfl
  refine ⟨[(Literal.integer n).token], .literal (.integer n) .nowhere, fun rest stops => ?_,
    Literal.derives_token h, rfl, fun _ _ => rfl⟩
  rw [numeral]
  exact Literal.scan_render h stops

/-- A text in parentheses computes what it computes without them. -/
lemma Computes.group (h : Computes p text result) :
    Computes .call ('(' :: (text ++ [')'])) result := by
  obtain ⟨w, e, scans, derives, nowhere, evaluates⟩ := h
  refine ⟨enclosed w, e, fun rest _ => ?_,
    .group kind_leftParen (derives.loosen (Nat.zero_le _)) kind_rightParen, nowhere, evaluates⟩
  rw [List.cons_append, List.append_assoc, List.singleton_append,
    scan_mark rfl (by simp) (by simp), scans _ (stops_cons.2 rfl),
    scan_mark rfl (by simp) (by simp)]
  simp [enclosed]

/-- A minus sign negates what is behind it. -/
lemma Computes.negation (h : Computes .unary text result) :
    Computes .unary ('-' :: text) (result.map fun n => -n) := by
  obtain ⟨w, e, scans, derives, nowhere, evaluates⟩ := h
  refine ⟨PrefixOp.negate.token :: w, .unary .negate e .nowhere, fun rest stops => ?_, ?_, rfl,
    fun call scope => ?_⟩
  · rw [List.cons_append, scan_mark rfl (by simp) (by simp), scans rest stops]
    rfl
  · have unary := Derives.unary PrefixOp.negate.ofKind?_token derives
    rwa [nowhere] at unary
  · rw [Expr.eval, evaluates, ofExcept_bind]
    cases result <;> rfl

/-- An operator combines what is on its sides. -/
lemma Computes.operation (op : Arithmetic) (inLeft : Computes op.infixOp.precedence left a)
    (inRight : Computes op.infixOp.precedence.tighter right b) :
    Computes op.infixOp.precedence (left ++ ' ' :: (op.infixOp.text.toList ++ ' ' :: right))
      (a.bind fun x => b.bind (op.onWords x)) := by
  obtain ⟨v, l, scansLeft, derivesLeft, nowhereLeft, evaluatesLeft⟩ := inLeft
  obtain ⟨w, r, scansRight, derivesRight, nowhereRight, evaluatesRight⟩ := inRight
  refine ⟨v ++ op.infixOp.token :: w, .binary op.infixOp l r .nowhere, fun rest stops => ?_, ?_,
    rfl, fun call scope => ?_⟩
  · simp only [List.append_assoc, List.cons_append]
    rw [scansLeft _ (stops_cons.2 rfl), scan_space rfl, InfixOp.scan_text, scansRight rest stops]
  · have binary := Derives.binary derivesLeft op.infixOp.ofKind?_token derivesRight
    rwa [nowhereLeft, nowhereRight] at binary
  · rw [Expr.eval, evaluatesLeft, evaluatesRight]
    cases a with
    | none => rfl
    | some x =>
      cases b with
      | none => rfl
      | some y => exact congrArg Eval.ofExcept (apply_infixOp op x y)

/-- The greatest word is written as its digits. -/
lemma computes_most : Computes .call "9223372036854775807".toList (some Int64.maxValue) := by
  have numeral : Numeral.ofNat Int64.maxValue.toInt.natAbs = "9223372036854775807" := by
    decide +kernel
  rw [← numeral]
  exact computes_numeral (by decide)

/-- One is written as its digit. -/
lemma computes_one : Computes .call "1".toList (some 1) := by
  have numeral : Numeral.ofNat (1 : Int64).toInt.natAbs = "1" := by
    decide +kernel
  rw [← numeral]
  exact computes_numeral (by decide)

/-- A negative word but the least is negated exactly. -/
lemma toInt_neg_of_negative (notLeast : n ≠ Int64.minValue) (negative : n.toInt < 0) :
    (-n).toInt = -n.toInt := by
  have above : n.toInt ≠ -2 ^ 63 := fun eq =>
    notLeast (Int64.toInt_inj.1 (eq.trans Int64.toInt_minValue.symm))
  have least := n.le_toInt
  rw [Int64.toInt_neg]
  exact Int.bmod_eq_of_le (by omega) (by omega)

/-- The text of a constant. The least one is the only one whose magnitude is no word. -/
lemma computes_constantSource (n : Int64) :
    Computes .call (constantSource n).toList (some n) := by
  unfold constantSource
  split
  · rename_i least
    have negation := (computes_most.loosen (q := .unary) (by decide)).negation
    have difference := (negation.loosen (by decide)).operation .sub
      (computes_one.loosen (by decide))
    rw [least]
    exact difference.group
  · rename_i notLeast
    split
    · rename_i negative
      have negative : n.toInt < 0 := Int64.lt_iff_toInt_lt.1 negative
      have magnitude := toInt_neg_of_negative notLeast negative
      have numeral : Computes .call (Numeral.ofNat n.toInt.natAbs).toList (some (-n)) := by
        rw [← Int.natAbs_neg, ← magnitude]
        exact computes_numeral (by omega)
      have negation := (numeral.loosen (q := .unary) (by decide)).negation.group
      simpa [Int64.neg_neg] using negation
    · rename_i nonneg
      exact computes_numeral (Int.not_lt.1 fun lt => nonneg (Int64.lt_iff_toInt_lt.2 lt))

/-- The text of a calculation computes its value. -/
theorem computes_source : ∀ t : Calculation,
    ∃ result : Option Int64, t.value? = result.map Int64.toInt ∧
      Computes .call t.source.toList result
  | constant n => ⟨some n, rfl, computes_constantSource n⟩
  | negation operand => by
    obtain ⟨result, value, computes⟩ := operand.computes_source
    refine ⟨result.map fun n => -n, ?_, ?_⟩
    · rw [value?, value]
      cases result with
      | none => rfl
      | some n => exact congrArg some n.toInt_neg.symm
    · simpa [source] using (computes.loosen (q := .unary) (by decide)).negation.group
  | operation op left right => by
    obtain ⟨a, valueLeft, inLeft⟩ := left.computes_source
    obtain ⟨b, valueRight, inRight⟩ := right.computes_source
    refine ⟨a.bind fun x => b.bind (op.onWords x), ?_, ?_⟩
    · rw [value?, valueLeft, valueRight]
      cases a with
      | none => rfl
      | some x =>
        cases b with
        | none => rfl
        | some y => exact (toInt_onWords op x y).symm
    · have tight : op.infixOp.precedence.rank ≤ Precedence.call.rank := by
        cases op <;> decide
      have tighter : op.infixOp.precedence.tighter.rank ≤ Precedence.call.rank := by
        cases op <;> decide
      simpa [source] using ((inLeft.loosen tight).operation op (inRight.loosen tighter)).group

end Source

end Calculation

namespace Engine

open Calculation

/-- A text that is read without a diagnostic runs as its program. -/
lemma run_of_reading {source : String} {p : Program} (b : Bounds) (e : Engine)
    (read : Reading.ofSource source = ⟨p, []⟩) :
    (e.run b source).1 = .ofValue? (e.runProgram b p).1 := by
  rw [run, runNamed, read]
  rfl

/-- The value of an expression is that of the program. -/
lemma runProgram_outcome {e : Expr} {result : Option Int64}
    (evaluates : ∀ call scope, e.eval call scope = Eval.ofExcept (answer result)) (b : Bounds)
    (engine : Engine) :
    (engine.runProgram b ⟨[.exprStmt e .nowhere]⟩).1 = some (outcome result) := by
  simp only [runProgram, Program.eval, Stmt.evalList, Stmt.eval, evaluates]
  cases result <;> rfl

/-- A text that computes a word runs to it, and one that divides by zero to the error. -/
lemma run_of_computes {text : String} {result : Option Int64}
    (h : Computes .call text.toList result) (b : Bounds) (engine : Engine) :
    (engine.run b text).1 = .value (outcome result) := by
  obtain ⟨w, e, scans, derives, nowhere, evaluates⟩ := h
  have tokens : (Cursor.ofSource text).tokens.map Token.shape = w := by
    have scanned := scans [] stops_nil
    rwa [List.append_nil, scan_nil, List.append_nil] at scanned
  have program := DerivesStatements.bare (.exprStmt (derives.loosen (Nat.zero_le _))) next_nil .none
  rw [List.append_nil, nowhere] at program
  obtain ⟨ss, read, same⟩ := program.placed tokens
  have shape : Program.shape ⟨ss⟩ = ⟨[.exprStmt e .nowhere]⟩ := congrArg Program.mk same
  have runs := (engine.runProgram_shape b ⟨ss⟩).1
  rw [shape, runProgram_outcome evaluates] at runs
  rw [run_of_reading b engine (Reading.ofSource_of_derives read)]
  obtain ⟨v, value, unplaced⟩ := Option.map_eq_some_iff.1 runs.symm
  rw [value]
  -- Neither an integer nor an error has anything in it that stands somewhere.
  cases result <;> cases v <;> cases unplaced <;> rfl

/-- Running the text of a calculation gives the integer that is its value with every result wrapped
around, or the error of a division by zero if there is no value; and without divisions that integer
is the value over unbounded integers, wrapped around once. -/
theorem run_calculation (b : Bounds) (e : Engine) (t : Calculation) :
    (∀ z, t.value? = some z →
      ∃ n : Int64, n.toInt = z ∧ (e.run b t.source).1 = .value (.integer n)) ∧
      (t.value? = none → (e.run b t.source).1 = .value (.error .divisionByZero)) ∧
      (t.DivisionFree → ∃ n : Int64, n.toInt = t.exact.bmod (2 ^ 64) ∧
        (e.run b t.source).1 = .value (.integer n)) := by
  obtain ⟨result, value, computes⟩ := t.computes_source
  have run := run_of_computes computes b e
  have integer (z : Int) (some : t.value? = some z) :
      ∃ n : Int64, n.toInt = z ∧ (e.run b t.source).1 = .value (.integer n) := by
    obtain ⟨n, rfl, word⟩ := Option.map_eq_some_iff.1 (value.symm.trans some)
    exact ⟨n, word, run⟩
  refine ⟨integer, fun none => ?_, fun free => integer _ (value?_of_divisionFree free)⟩
  rw [Option.map_eq_none_iff.1 (value.symm.trans none)] at run
  exact run

-- The least word divided by minus one wraps around to itself.
example :
    let t : Calculation := .operation .div (.constant Int64.minValue) (.constant (-1))
    t.source = "((-9223372036854775807 - 1) / (-1))" ∧ t.value? = some (-2 ^ 63) := by
  decide +kernel

end Engine

end Monkey
