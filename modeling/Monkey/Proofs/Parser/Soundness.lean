import Monkey.Proofs.Parser.Readers

/-!
# What is read is derived

Whatever a reader takes from the front of a list of tokens derives the tree that it gives, and what
it leaves does not continue it. While the operators of an expression are read, the tree so far
derives at some level, and the next token binds no more tightly than that level; this is `Stands`.
Main statement: `expression_sound`.
-/

namespace Monkey.Parser

open Grammar

/-- The tokens `w` derive the expression at level `p`, and a token that follows does not bind more
tightly than the context, nor is it an `else` that the expression would have taken. -/
structure Stands (context p : Precedence) (w : List Token) (e : Expr) (rest : List Token) :
    Prop where
  derives : Derives p w e
  apart : Next (fun k => ¬ context < binding k) rest
  complete : ClosesConsequence w e → Next (· ≠ .elseWord) rest

/-- What ends with another token than a closing brace leaves no conditional open. -/
lemma Stands.of_closing {w rest : List Token} {t : Token} {e : Expr}
    (derives : Derives .call (w ++ [t]) e) (kind : t.kind ≠ .rightBrace) :
    Stands .call .call (w ++ [t]) e rest where
  derives := derives
  apart _ _ := not_call_lt _
  complete closes := absurd closes (not_closesConsequence kind)

/-- The parameters that `moreParams` reads, with one in front of them. -/
lemma moreParams_sound {ts rest : List Token} {xs : List Identifier} {t : Token}
    (kind : t.kind = .identifier) (read : Reads (moreParams ts) xs rest) :
    ∃ w closing, ts = w ++ closing :: rest ∧ closing.kind = .rightParen ∧
      Parameters (t :: w) (⟨t.lexeme, t.span⟩ :: xs) := by
  induction n : ts.length using Nat.strongRecOn generalizing ts t xs with
  | ind n ih =>
    subst n
    rcases next_or .comma ts with ⟨comma, ts, rfl, isComma⟩ | notComma
    · obtain ⟨x, r, readName, others, _, readMore, rfl, rfl⟩ :=
        (reads_moreParams_comma isComma).1 read
      obtain ⟨t', rfl, kind', rfl⟩ := reads_name.1 readName
      obtain ⟨w, closing, rfl, close, params⟩ := ih _ (by grind) kind' readMore rfl
      exact ⟨comma :: t' :: w, closing, rfl, close, .more kind isComma params⟩
    · obtain ⟨closing, _, readClose, rfl, rfl⟩ := (reads_moreParams_close notComma).1 read
      obtain ⟨rfl, close⟩ := reads_expect.1 readClose
      exact ⟨[], closing, rfl, close, .last kind⟩

/-- Parameters that are read derive from the tokens in front of the closing parenthesis. -/
lemma params_sound {ts rest : List Token} {xs : List Identifier}
    (read : Reads (params ts) xs rest) : ∃ w closing, ts = w ++ closing :: rest ∧
      closing.kind = .rightParen ∧ Parameters w xs := by
  rcases next_or .rightParen ts with ⟨closing, ts, rfl, close⟩ | notNone
  · obtain ⟨rfl, rfl⟩ := (reads_params_none close).1 read
    exact ⟨[], closing, rfl, close, .none⟩
  · obtain ⟨x, r, readName, others, _, readMore, rfl, rfl⟩ := (reads_params notNone).1 read
    obtain ⟨t, rfl, kind, rfl⟩ := reads_name.1 readName
    obtain ⟨w, closing, rfl, close, params⟩ := moreParams_sound kind readMore
    exact ⟨t :: w, closing, rfl, close, params⟩

/-- What the readers that call each other take from the front of a list is derived. -/
structure Sound (ts : List Token) : Prop where
  expression : ∀ {context e rest}, Reads (expression context ts) e rest →
    ∃ w, ts = w ++ rest ∧ Stands context (within context) w e rest
  operators : ∀ {context p v left e rest}, Reads (operators context left ts) e rest →
    Stands p p v left ts → (within context).rank ≤ p.rank →
    ∃ w, v ++ ts = w ++ rest ∧ Stands context (within context) w e rest
  moreArguments : ∀ {args v e rest}, Reads (moreArguments ts) args rest → Derives .lowest v e →
    ∃ w closing, v ++ ts = w ++ closing :: rest ∧ closing.kind = .rightParen ∧
      DerivesArguments w (e :: args.1) ∧ args.2 = closing.span
  block : ∀ {b rest}, Reads (block ts) b rest → ∃ w, ts = w ++ rest ∧ DerivesBlock w b
  body : ∀ {statements rest}, Reads (body ts) statements rest →
    ∃ w closing, ts = w ++ closing :: rest ∧ closing.kind = .rightBrace ∧
      DerivesStatements w statements.1 ∧ statements.2 = closing.span

-- The readers call each other on shorter lists, or in this order on the same list.
section Readers

variable {ts rest : List Token} (ih : ∀ us, us.length < ts.length → Sound us)

include ih

/-- An operand that is read derives from the tokens it took. -/
lemma operand_sound {e : Expr} (read : Reads (operand ts) e rest) :
    ∃ p w, ts = w ++ rest ∧ Stands p p w e rest ∧ Precedence.unary.rank ≤ p.rank := by
  obtain ⟨t, ts, rfl, begins⟩ := begins_of_reads_operand read
  cases kind : t.kind with
  | identifier =>
    obtain ⟨rfl, rfl⟩ := (reads_operand_identifier kind).1 read
    exact ⟨.call, [t], rfl, .of_closing (w := []) (.identifier kind) (by simp [kind]), by decide⟩
  | int =>
    obtain ⟨n, found, rfl, rfl⟩ := (reads_operand_integer kind).1 read
    exact ⟨.call, [t], rfl, .of_closing (w := []) (.integer kind found) (by simp [kind]),
      by decide⟩
  | string =>
    obtain ⟨rfl, rfl⟩ := (reads_operand_string kind).1 read
    exact ⟨.call, [t], rfl, .of_closing (w := []) (.string kind) (by simp [kind]), by decide⟩
  | trueWord =>
    obtain ⟨rfl, rfl⟩ := (reads_operand_true kind).1 read
    exact ⟨.call, [t], rfl, .of_closing (w := []) (.trueWord kind) (by simp [kind]), by decide⟩
  | falseWord =>
    obtain ⟨rfl, rfl⟩ := (reads_operand_false kind).1 read
    exact ⟨.call, [t], rfl, .of_closing (w := []) (.falseWord kind) (by simp [kind]), by decide⟩
  | minus | bang =>
    obtain ⟨op, found⟩ : ∃ op, PrefixOp.ofKind? t.kind = some op := by
      rw [kind]
      exact ⟨_, rfl⟩
    obtain ⟨value, _, readValue, rfl, rfl⟩ := (reads_operand_unary found).1 read
    obtain ⟨w, rfl, stands⟩ := (ih _ (by simp)).expression readValue
    refine ⟨.unary, t :: w, rfl, ⟨.unary found stands.derives, stands.apart, ?_⟩, by decide⟩
    -- What ends open ends so with its operand, and that has been read as far as it goes.
    intro closes
    have closes := (closesConsequence_append (v := [t]) stands.derives.ne_nil).1 closes
    exact stands.complete (closesConsequence_unary.1 closes)
  | leftParen =>
    obtain ⟨value, r, readValue, t', _, readClose, rfl, rfl⟩ := (reads_operand_group kind).1 read
    obtain ⟨rfl, close⟩ := reads_expect.1 readClose
    obtain ⟨w, rfl, stands⟩ := (ih _ (by simp)).expression readValue
    refine ⟨.call, t :: (w ++ [t']), by simp, ?_, by decide⟩
    exact .of_closing (w := t :: w) (.group kind stands.derives close) (by simp [close])
  | ifWord =>
    obtain ⟨t₁, r₁, readOpen, condition, r₂, readCondition, t₃, r₃, readClose, consequence, r₄,
      readConsequence, alternative, _, readAlternative, rfl, rfl⟩ :=
      (reads_operand_conditional kind).1 read
    obtain ⟨rfl, opening⟩ := reads_expect.1 readOpen
    obtain ⟨rfl, closing⟩ := reads_expect.1 readClose
    obtain ⟨v, rfl, stands⟩ := (ih _ (by grind)).expression readCondition
    obtain ⟨w, rfl, derives⟩ := (ih _ (by grind)).block readConsequence
    rcases next_or .elseWord r₄ with ⟨t₄, r₄, rfl, isElse⟩ | notElse
    · obtain ⟨b, _, readBlock, rfl, rfl⟩ := (reads_otherwise_else isElse).1 readAlternative
      obtain ⟨w', rfl, derives'⟩ := (ih _ (by grind)).block readBlock
      refine ⟨.call, t :: t₁ :: (v ++ t₃ :: (w ++ t₄ :: w')), by simp, ⟨?_, ?_, ?_⟩, by decide⟩
      · exact .alternative kind opening stands.derives closing derives isElse derives'
      · exact fun _ _ => not_call_lt _
      · rintro ⟨_, closed⟩
        cases closed
    · obtain ⟨rfl, rfl⟩ := (reads_otherwise_none notElse).1 readAlternative
      refine ⟨.call, t :: t₁ :: (v ++ t₃ :: w), by simp, ⟨?_, ?_, fun _ => notElse⟩, by decide⟩
      · exact .conditional kind opening stands.derives closing derives
      · exact fun _ _ => not_call_lt _
  | fnWord =>
    obtain ⟨t₁, r₁, readOpen, names, r₂, readParams, body, _, readBody, rfl, rfl⟩ :=
      (reads_operand_function kind).1 read
    obtain ⟨rfl, opening⟩ := reads_expect.1 readOpen
    obtain ⟨v, t₂, rfl, closing, params⟩ := params_sound readParams
    obtain ⟨w, rfl, derives⟩ := (ih _ (by grind)).block readBody
    refine ⟨.call, t :: t₁ :: (v ++ t₂ :: w), by simp, ⟨?_, ?_, ?_⟩, by decide⟩
    · exact .function kind opening params closing derives
    · exact fun _ _ => not_call_lt _
    · rintro ⟨_, closed⟩
      cases closed
  | _ =>
    rw [kind] at begins
    exact absurd begins (by decide)

/-- An expression that is read derives from the tokens it took. -/
lemma expression_sound {context : Precedence} {e : Expr}
    (read : Reads (expression context ts) e rest) :
    ∃ w, ts = w ++ rest ∧ Stands context (within context) w e rest := by
  obtain ⟨first, r, readFirst, further⟩ := reads_expression.1 read
  have lt := readFirst.shorter
  obtain ⟨p, v, rfl, stands, le⟩ := operand_sound ih readFirst
  exact (ih r lt).operators further stands (Nat.le_trans (within_le_unary context) le)

/-- Arguments that are read derive from the tokens in front of the closing parenthesis. -/
lemma arguments_sound {args : List Expr × Span} (read : Reads (arguments ts) args rest) :
    ∃ w closing, ts = w ++ closing :: rest ∧ closing.kind = .rightParen ∧
      DerivesArguments w args.1 ∧ args.2 = closing.span := by
  rcases next_or .rightParen ts with ⟨closing, ts, rfl, close⟩ | notNone
  · obtain ⟨rfl, rfl⟩ := (reads_arguments_none close).1 read
    exact ⟨[], closing, rfl, close, .none, rfl⟩
  · obtain ⟨first, r, readFirst, others, _, readMore, rfl, rfl⟩ := (reads_arguments notNone).1 read
    have lt := readFirst.shorter
    obtain ⟨v, rfl, stands⟩ := expression_sound ih readFirst
    exact (ih r lt).moreArguments readMore stands.derives

/-- Operators that are read derive with the expression on their left. -/
lemma operators_sound {context p : Precedence} {v : List Token} {left e : Expr}
    (read : Reads (operators context left ts) e rest) (stands : Stands p p v left ts)
    (le : (within context).rank ≤ p.rank) :
    ∃ w, v ++ ts = w ++ rest ∧ Stands context (within context) w e rest := by
  by_cases stop : Next (fun k => ¬ context < binding k) ts
  · obtain ⟨rfl, rfl⟩ := (reads_operators_stop stop).1 read
    exact ⟨v, rfl, stands.derives.loosen le, stop, stands.complete⟩
  · cases ts with
    | nil => exact absurd next_nil stop
    | cons t ts =>
      have below : context < binding t.kind := by simpa using stop
      have apart : (binding t.kind).rank ≤ p.rank := Nat.le_of_not_lt (next_cons.1 stands.apart)
      rcases of_lt_binding below with ⟨op, found, binds⟩ | ⟨kind, binds⟩
      · -- What stands on the left becomes the left operand, and the reader goes on from there.
        rw [binds] at below apart
        obtain ⟨right, r, readRight, further⟩ := (reads_operators_binary found below).1 read
        have lt := readRight.shorter
        obtain ⟨w, rfl, standsRight⟩ := (ih ts (by simp)).expression readRight
        have whole : Stands op.precedence op.precedence (v ++ t :: w)
            (.binary op left right (left.span.merge right.span)) r := by
          refine ⟨.binary (stands.derives.loosen apart) found ?_, standsRight.apart, ?_⟩
          · rw [← within_precedence]
            exact standsRight.derives
          · intro closes
            rw [closesConsequence_binary, List.append_cons,
              closesConsequence_append standsRight.derives.ne_nil] at closes
            exact standsRight.complete closes
        obtain ⟨w', eq, result⟩ := (ih r (by grind)).operators further whole
          (within_le_of_lt below)
        exact ⟨w', by simpa using eq, result⟩
      · rw [binds] at below apart
        obtain ⟨args, r, readArgs, further⟩ := (reads_operators_call kind below).1 read
        -- A call is closed by its own parenthesis, so it stands whatever follows.
        have lt := readArgs.shorter
        obtain ⟨w, closing, rfl, close, derives, span⟩ :=
          arguments_sound (fun us lt => ih us (Nat.lt_succ_of_lt lt)) readArgs
        have whole : Stands .call .call (v ++ t :: (w ++ [closing]))
            (.call left args.1 (left.span.merge args.2)) r := by
          rw [span]
          refine ⟨.call (stands.derives.loosen apart) kind derives close, ?_, ?_⟩
          · exact fun _ _ => not_call_lt _
          · rintro ⟨_, closed⟩
            cases closed
        obtain ⟨w', eq, result⟩ := (ih r (by grind)).operators further whole
          (Nat.le_trans (within_le_unary context) (by decide))
        exact ⟨w', by simpa using eq, result⟩

/-- Further arguments that are read derive with the first one. -/
lemma moreArguments_sound {args : List Expr × Span} {v : List Token} {e : Expr}
    (read : Reads (moreArguments ts) args rest) (first : Derives .lowest v e) :
    ∃ w closing, v ++ ts = w ++ closing :: rest ∧ closing.kind = .rightParen ∧
      DerivesArguments w (e :: args.1) ∧ args.2 = closing.span := by
  rcases next_or .comma ts with ⟨comma, ts, rfl, isComma⟩ | notComma
  · obtain ⟨next, r, readNext, others, _, readMore, rfl, rfl⟩ :=
      (reads_moreArguments_comma isComma).1 read
    have lt := readNext.shorter
    obtain ⟨w, rfl, stands⟩ := (ih ts (by simp)).expression readNext
    obtain ⟨w', closing, eq, close, derives, span⟩ :=
      (ih r (by grind)).moreArguments readMore stands.derives
    refine ⟨v ++ comma :: w', closing, ?_, close, .more first isComma derives, span⟩
    rw [eq, List.append_assoc, List.cons_append]
  · obtain ⟨closing, _, readClose, rfl, rfl⟩ := (reads_moreArguments_close notComma).1 read
    obtain ⟨rfl, close⟩ := reads_expect.1 readClose
    exact ⟨v, closing, rfl, close, .last first, rfl⟩

/-- A block that is read derives from the tokens it took. -/
lemma block_sound {b : Block} (read : Reads (block ts) b rest) :
    ∃ w, ts = w ++ rest ∧ DerivesBlock w b := by
  obtain ⟨t, r, readOpen, statements, _, readBody, rfl, rfl⟩ := reads_block.1 read
  obtain ⟨rfl, opening⟩ := reads_expect.1 readOpen
  obtain ⟨w, closing, rfl, close, derives, span⟩ := (ih r (by simp)).body readBody
  rw [span]
  exact ⟨t :: (w ++ [closing]), by simp, .braces opening derives close⟩

/-- A statement that is read derives from the tokens it took, but for the semicolon. -/
lemma statement_sound {s : Stmt} (read : Reads (statement ts) s rest) :
    ∃ v s' r, ts = v ++ r ∧ DerivesStatement v s' ∧ Next Apart r ∧ Ends s' r s rest := by
  have apart : ∀ {w e r}, Stands .lowest (within .lowest) w e r → Next Apart r :=
    fun stands => stands.apart.mono fun _ => not_lowest_lt_iff.1
  rcases next_or .letWord ts with ⟨t, ts, rfl, kind⟩ | notLet
  · obtain ⟨x, r₁, readName, t₂, r₂, readEqual, value, r₃, readValue, ends⟩ :=
      (reads_statement_let kind).1 read
    obtain ⟨t₁, rfl, name, rfl⟩ := reads_name.1 readName
    obtain ⟨rfl, equal⟩ := reads_expect.1 readEqual
    obtain ⟨w, rfl, stands⟩ := (ih r₂ (by grind)).expression readValue
    exact ⟨t :: t₁ :: t₂ :: w, _, r₃, rfl, .letStmt kind name equal stands.derives,
      apart stands, ends⟩
  · rcases next_or .returnWord ts with ⟨t, ts, rfl, kind⟩ | notReturn
    · obtain ⟨value, r, readValue, ends⟩ := (reads_statement_return kind).1 read
      obtain ⟨w, rfl, stands⟩ := (ih ts (by simp)).expression readValue
      exact ⟨t :: w, _, r, rfl, .returnStmt kind stands.derives, apart stands, ends⟩
    · obtain ⟨value, r, readValue, ends⟩ :=
        (reads_statement_expr fun t first => ⟨notLet t first, notReturn t first⟩).1 read
      obtain ⟨w, rfl, stands⟩ := expression_sound ih readValue
      exact ⟨w, _, r, rfl, .exprStmt stands.derives, apart stands, ends⟩

/-- A body that is read derives from the tokens in front of the closing brace. -/
lemma body_sound {statements : List Stmt × Span} (read : Reads (body ts) statements rest) :
    ∃ w closing, ts = w ++ closing :: rest ∧ closing.kind = .rightBrace ∧
      DerivesStatements w statements.1 ∧ statements.2 = closing.span := by
  cases ts with
  | nil => exact absurd read not_reads_body_nil
  | cons t ts =>
    by_cases close : t.kind = .rightBrace
    · obtain ⟨rfl, rfl⟩ := (reads_body_close close).1 read
      exact ⟨[], t, rfl, close, .none, rfl⟩
    · obtain ⟨first, r, readFirst, others, _, readBody, rfl, rfl⟩ := (reads_body close).1 read
      obtain ⟨w, closing, rfl, close, derives, span⟩ := (ih r readFirst.shorter).body readBody
      obtain ⟨v, s, r, eq, statement, apart, ends⟩ := statement_sound ih readFirst
      rw [eq]
      rcases ends with ⟨semicolon, rfl, kind, rfl⟩ | ⟨_, rfl, rfl⟩
      · exact ⟨v ++ semicolon :: w, closing, by simp, close, .ended statement kind derives, span⟩
      · refine ⟨v ++ w, closing, by simp, close, .bare statement ?_ derives, span⟩
        -- Statements may be over here, but what was read goes on with the brace.
        cases w with
        | nil => exact next_nil
        | cons t w => exact next_cons.2 (next_cons.1 apart)

end Readers

/-- All readers are sound. -/
theorem sound (ts : List Token) : Sound ts := by
  induction n : ts.length using Nat.strongRecOn generalizing ts with
  | ind n ih =>
    subst n
    have ih : ∀ us : List Token, us.length < ts.length → Sound us := fun us lt => ih _ lt us rfl
    exact ⟨expression_sound ih, operators_sound ih, moreArguments_sound ih, block_sound ih,
      body_sound ih⟩

end Monkey.Parser
