import Monkey.Proofs.Grammar.Ambiguous

/-!
# Reshaping derivations

Whatever forms a program in the ambiguous grammar derives statements in the stratified one. Each way
to put expressions together is followed along an edge of their derivations: an operator in front
goes to the leftmost operand, arguments go to the rightmost one, and an operator between two
expressions, with what it takes of the right one, goes to where its level is on the right edge of
the left one. A statement without a semicolon is joined with the next one if that continues it,
which then begins with a minus or an opening parenthesis. Main statement: `IsProgram.derives`.
-/

namespace Monkey.Grammar

variable {p : Precedence} {t : Token} {v w : List Token} {e : Expr}

/-- No infix operator binds tighter than a product. -/
lemma rank_precedence_le (op : InfixOp) : op.precedence.rank ≤ Precedence.product.rank := by
  cases op <;> decide

/-- Nothing to the right of an infix operator needs to bind tighter than a prefix operator. -/
lemma rank_tighter_le (op : InfixOp) : op.precedence.tighter.rank ≤ Precedence.unary.rank := by
  cases op <;> decide

/-- An operator in front of an expression goes to its leftmost operand. -/
lemma Derives.prefixed {op : PrefixOp} (found : PrefixOp.ofKind? t.kind = some op) {p w e} :
    Derives p w e → p ≠ .call → ∃ e', Derives p (t :: w) e'
  | .tighter h, ne => by
    by_cases last : p.tighter = .call
    · have unary : p = .unary := by
        cases p with
        | unary => rfl
        | call => exact absurd rfl ne
        | _ => cases last
      subst unary
      exact ⟨_, .unary found (.tighter h)⟩
    · obtain ⟨e', h'⟩ := h.prefixed found last
      exact ⟨e', .tighter h'⟩
  | @Derives.binary op _ _ _ _ _ left found' right, _ => by
    obtain ⟨e', h'⟩ := left.prefixed found (by cases op <;> decide)
    exact ⟨_, .binary h' found' right⟩
  | .unary found' operand, _ => ⟨_, .unary found (.unary found' operand)⟩
  | .call .., ne | .identifier _, ne | .integer _ _, ne | .string _, ne | .trueWord _, ne
  | .falseWord _, ne | .group .., ne | .conditional .., ne | .alternative .., ne
  | .function .., ne => absurd rfl ne

/-- Arguments behind an expression go to its rightmost operand. -/
lemma Derives.called {opening closing : Token} {args : List Token} {es : List Expr}
    (opens : opening.kind = .leftParen) (derives : DerivesArguments args es)
    (closes : closing.kind = .rightParen) {p w e} :
    Derives p w e → ∃ e', Derives p (w ++ opening :: (args ++ [closing])) e'
  | .tighter h => by
    obtain ⟨e', h'⟩ := h.called opens derives closes
    exact ⟨e', .tighter h'⟩
  | .binary left found right => by
    obtain ⟨e', h'⟩ := right.called opens derives closes
    rw [List.append_assoc, List.cons_append]
    exact ⟨_, .binary left found h'⟩
  | .unary found operand => by
    obtain ⟨e', h'⟩ := operand.called opens derives closes
    exact ⟨_, .unary found h'⟩
  | h@(.call ..) | h@(.identifier _) | h@(.integer _ _) | h@(.string _) | h@(.trueWord _)
  | h@(.falseWord _) | h@(.group ..) | h@(.conditional ..) | h@(.alternative ..)
  | h@(.function ..) => ⟨_, .call h opens derives closes⟩

/-- An operator and a right operand of it, behind an expression of a looser level, go to where the
level of the operator is on the right edge of the expression. -/
lemma Derives.inserted {op : InfixOp} {b : Expr} (found : InfixOp.ofKind? t.kind = some op)
    (right : Derives op.precedence.tighter w b) {p v e} (h : Derives p v e)
    (le : p.rank ≤ op.precedence.rank) : ∃ e', Derives p (v ++ t :: w) e' := by
  -- Down the right edge, until the level is as tight as the operator.
  by_cases same : op.precedence.rank ≤ p.rank
  · exact ⟨_, (Derives.binary (h.loosen same) found right).loosen le⟩
  · match h with
    | .tighter h =>
      have step := rank_tighter (Nat.lt_of_not_le same)
      obtain ⟨e', h'⟩ := Derives.inserted found right h (by omega)
      exact ⟨e', .tighter h'⟩
    | .binary left found' last =>
      have step := rank_tighter (Nat.lt_of_not_le same)
      obtain ⟨e', h'⟩ := Derives.inserted found right last (by omega)
      rw [List.append_assoc, List.cons_append]
      exact ⟨_, .binary left found' h'⟩
    | .unary .. | .call .. | .identifier _ | .integer _ _ | .string _ | .trueWord _ | .falseWord _
    | .group .. | .conditional .. | .alternative .. | .function .. =>
      exact absurd (Nat.le_trans (rank_precedence_le op) (by decide)) same

/-- An operator between two expressions. -/
lemma Derives.infixed {op : InfixOp} {a : Expr} (found : InfixOp.ofKind? t.kind = some op)
    (left : Derives .lowest v a) {p w e} : Derives p w e → ∃ e', Derives .lowest (v ++ t :: w) e'
  | .tighter h => Derives.infixed found left h
  | .binary first found' last => by
    obtain ⟨e', h'⟩ := Derives.infixed found left first
    obtain ⟨e'', h''⟩ := Derives.inserted found' last h' (Nat.zero_le _)
    rw [List.append_assoc] at h''
    exact ⟨e'', h''⟩
  | h@(.unary ..) => Derives.inserted found (h.loosen (rank_tighter_le op)) left (Nat.zero_le _)
  | h@(.call ..) | h@(.identifier _) | h@(.integer _ _) | h@(.string _) | h@(.trueWord _)
  | h@(.falseWord _) | h@(.group ..) | h@(.conditional ..) | h@(.alternative ..)
  | h@(.function ..) =>
    Derives.inserted found (h.loosen (Nat.le_succ_of_le (rank_tighter_le op))) left (Nat.zero_le _)

/-- The kinds that an expression may go on with although they begin one. -/
def Continues (kind : TokenKind) : Prop := kind = .minus ∨ kind = .leftParen

instance : DecidablePred Continues := fun _ => instDecidableOr

/-- An expression goes on with one that begins with a minus or an opening parenthesis. -/
lemma Derives.joined {a : Expr} (left : Derives .lowest v a) {p w e} :
    Derives p w e → Next Continues w → ∃ e', Derives .lowest (v ++ w) e'
  | .tighter h, start => Derives.joined left h start
  | @Derives.binary op t w₁ w₂ _ _ first found last, start => by
    have start : Next Continues w₁ := by
      obtain ⟨t', w', rfl, _⟩ := first.begins
      exact next_cons.2 (next_cons.1 start)
    obtain ⟨e', h'⟩ := Derives.joined left first start
    obtain ⟨e'', h''⟩ := Derives.inserted found last h' (Nat.zero_le _)
    rw [List.append_assoc] at h''
    exact ⟨e'', h''⟩
  | .unary found operand, start => by
    -- A minus in front of the operand is read as a subtraction instead.
    rcases next_cons.1 start with kind | kind
    · have sub : InfixOp.ofKind? _ = some .sub := congrArg InfixOp.ofKind? kind
      exact Derives.inserted sub (operand.loosen (rank_tighter_le .sub)) left (by decide)
    · rw [kind] at found
      cases found
  | @Derives.call w₁ _ _ _ _ _ callee opening args closing, start => by
    have start : Next Continues w₁ := by
      obtain ⟨t', w', rfl, _⟩ := callee.begins
      exact next_cons.2 (next_cons.1 start)
    obtain ⟨e', h'⟩ := Derives.joined left callee start
    obtain ⟨e'', h''⟩ := h'.called opening args closing
    rw [List.append_assoc] at h''
    exact ⟨e'', h''⟩
  | .group opening inner closing, _ => left.called opening (.last inner) closing
  | .identifier kind, start | .integer kind _, start | .string kind, start | .trueWord kind, start
  | .falseWord kind, start | .conditional kind _ _ _ _, start | .alternative kind _ _ _ _ _ _, start
  | .function kind _ _ _ _, start => by
    have start := next_cons.1 start
    rw [kind] at start
    exact absurd start (by decide)

/-- A statement goes on with an expression that begins with a minus or an opening parenthesis. -/
lemma DerivesStatement.joined {s : Stmt} (h : DerivesStatement v s) (value : Derives .lowest w e)
    (start : Next Continues w) : ∃ s', DerivesStatement (v ++ w) s' := by
  cases h with
  | letStmt kind name equal first =>
    obtain ⟨e', h'⟩ := Derives.joined first value start
    exact ⟨_, .letStmt kind name equal h'⟩
  | returnStmt kind first =>
    obtain ⟨e', h'⟩ := Derives.joined first value start
    exact ⟨_, .returnStmt kind h'⟩
  | exprStmt first =>
    obtain ⟨e', h'⟩ := Derives.joined first value start
    exact ⟨_, .exprStmt h'⟩

/-- A statement goes on with one that continues it. -/
lemma DerivesStatement.merged {s s' : Stmt} (h : DerivesStatement v s)
    (h' : DerivesStatement w s') (not : ¬ Next Apart w) : ∃ s'', DerivesStatement (v ++ w) s'' := by
  cases h' with
  | letStmt kind _ _ _ | returnStmt kind _ =>
    refine absurd (next_cons.2 ?_) not
    rw [kind]
    decide
  | exprStmt value =>
    refine h.joined value ?_
    obtain ⟨t, w', rfl, begins⟩ := value.begins
    rw [next_cons] at not ⊢
    -- Of the kinds that begin an expression only these two may also continue one.
    revert begins not
    cases t.kind <;> decide

/-- What comes next is told by the statement in front. -/
lemma DerivesStatement.next_append {P : TokenKind → Prop} {s : Stmt} (h : DerivesStatement v s) :
    Next P (v ++ w) ↔ Next P v := by
  obtain ⟨t, v', rfl, _⟩ := h.opens
  rw [List.cons_append, next_cons, next_cons]

/-- A statement without a semicolon goes in front of statements. -/
lemma DerivesStatement.prepended {s : Stmt} {statements : List Stmt} (first : DerivesStatement v s)
    (others : DerivesStatements w statements) :
    ∃ statements', DerivesStatements (v ++ w) statements' := by
  by_cases apart : Next Apart w
  · exact ⟨_, .bare first apart others⟩
  · cases others with
    | none => exact absurd next_nil apart
    | @ended v' semicolon w _ _ second kind others =>
      have start : ¬ Next Apart v' := fun start => apart (second.next_append.2 start)
      obtain ⟨s', merged⟩ := first.merged second start
      rw [← List.append_assoc]
      exact ⟨_, .ended merged kind others⟩
    | @bare v' w _ _ second apart' others =>
      have start : ¬ Next Apart v' := fun start => apart (second.next_append.2 start)
      obtain ⟨s', merged⟩ := first.merged second start
      rw [← List.append_assoc]
      exact ⟨_, .bare merged apart' others⟩

mutual

/-- An expression of the ambiguous grammar derives one of the stratified grammar. -/
theorem IsExpr.derives {w : List Token} : IsExpr w → ∃ e, Derives .lowest w e
  | .identifier kind => ⟨_, (Derives.identifier kind).loosen (by decide)⟩
  | .integer kind found => ⟨_, (Derives.integer kind found).loosen (by decide)⟩
  | .string kind => ⟨_, (Derives.string kind).loosen (by decide)⟩
  | .trueWord kind => ⟨_, (Derives.trueWord kind).loosen (by decide)⟩
  | .falseWord kind => ⟨_, (Derives.falseWord kind).loosen (by decide)⟩
  | .group opening inner closing => by
    obtain ⟨e, h⟩ := inner.derives
    exact ⟨e, (Derives.group opening h closing).loosen (by decide)⟩
  | .conditional kind opening condition closing consequence => by
    obtain ⟨e, h⟩ := condition.derives
    obtain ⟨b, hb⟩ := consequence.derives
    exact ⟨_, (Derives.conditional kind opening h closing hb).loosen (by decide)⟩
  | .alternative kind opening condition closing consequence isElse alternative => by
    obtain ⟨e, h⟩ := condition.derives
    obtain ⟨b, hb⟩ := consequence.derives
    obtain ⟨b', hb'⟩ := alternative.derives
    exact ⟨_, (Derives.alternative kind opening h closing hb isElse hb').loosen (by decide)⟩
  | .function kind opening params closing body => by
    obtain ⟨b, hb⟩ := body.derives
    exact ⟨_, (Derives.function kind opening params closing hb).loosen (by decide)⟩
  | .unary found operand => by
    obtain ⟨e, h⟩ := operand.derives
    exact h.prefixed found (by decide)
  | .binary left found right => by
    obtain ⟨a, ha⟩ := left.derives
    obtain ⟨b, hb⟩ := right.derives
    exact Derives.infixed found ha hb
  | .call callee opening args closing => by
    obtain ⟨e, h⟩ := callee.derives
    obtain ⟨es, hes⟩ := args.derives
    exact h.called opening hes closing

/-- Arguments derive in layers. -/
theorem IsArguments.derives {w : List Token} : IsArguments w → ∃ es, DerivesArguments w es
  | .none => ⟨[], .none⟩
  | .last first => by
    obtain ⟨e, h⟩ := first.derives
    exact ⟨[e], .last h⟩
  | .more first isComma others nonempty => by
    obtain ⟨e, h⟩ := first.derives
    obtain ⟨es, hes⟩ := others.derives
    cases es with
    | nil =>
      cases hes
      exact absurd rfl nonempty
    | cons e' es => exact ⟨_, .more h isComma hes⟩

/-- A block derives in layers. -/
theorem IsBlock.derives {w : List Token} : IsBlock w → ∃ b, DerivesBlock w b
  | .braces opening statements closing => by
    obtain ⟨ss, h⟩ := statements.derives
    exact ⟨_, .braces opening h closing⟩

/-- A statement derives in layers. -/
theorem IsClause.derives {w : List Token} : IsClause w → ∃ s, DerivesStatement w s
  | .letStmt kind name equal value => by
    obtain ⟨e, h⟩ := value.derives
    exact ⟨_, .letStmt kind name equal h⟩
  | .returnStmt kind value => by
    obtain ⟨e, h⟩ := value.derives
    exact ⟨_, .returnStmt kind h⟩
  | .exprStmt value => by
    obtain ⟨e, h⟩ := value.derives
    exact ⟨_, .exprStmt h⟩

/-- A program of the ambiguous grammar derives statements in the stratified grammar. -/
theorem IsProgram.derives {w : List Token} :
    IsProgram w → ∃ statements, DerivesStatements w statements
  | .none => ⟨[], .none⟩
  | .ended first kind others => by
    obtain ⟨s, h⟩ := first.derives
    obtain ⟨ss, hs⟩ := others.derives
    exact ⟨_, .ended h kind hs⟩
  | .bare first others => by
    obtain ⟨s, h⟩ := first.derives
    obtain ⟨ss, hs⟩ := others.derives
    exact h.prepended hs

end

end Monkey.Grammar
