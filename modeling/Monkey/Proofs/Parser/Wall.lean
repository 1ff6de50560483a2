import Monkey.Proofs.Parser.Nesting
import Monkey.Proofs.Parser.Readers

/-!
# Reading up to a wall

A semicolon outside all braces ends whatever is read up to it, and so does a keyword of a statement.
What is behind such a wall has no part in what is read before it, neither in what a reader takes nor
in where it breaks off. This is said of two texts that have the same tokens up to a wall: the
readers go through them abreast. Main statements: `walled` and `statement_walled`.
-/

namespace Monkey.Parser

open Grammar

variable {α : Type} {v v' us : List Token} {depth depth' : Nat}

/-- The kinds that stand in no expression outside braces, and end every one. -/
def IsWall (kind : TokenKind) : Prop :=
  kind = .semicolon ∨ kind = .letWord ∨ kind = .returnWord

instance : DecidablePred IsWall := fun _ => instDecidableOr

/-- Readers of two texts that go on with `v` and with `v'` behind the tokens `us` come to the same:
a value, with rests that belong together, or a fault, at the same place. -/
inductive Parallel (v v' : List Token) (T : List Token → List Token → List Token → Prop)
    (us : List Token) {R R' : Type} [Outcome R α] [Outcome R' α] :
    Except Failure R → Except Failure R' → Prop where
  | reads {x y a rest rest'} :
    T us rest rest' →
    Reads x a rest →
    Reads y a rest' →
    Parallel v v' T us x y
  | fails {fault r} :
    r <:+ us →
    Parallel v v' T us (fail fault (r ++ v)) (fail fault (r ++ v'))

/-- Some of the tokens `us` are left in front of `v` and of `v'`, and close so many braces. -/
inductive Before (v v' : List Token) (depth : Nat) (us : List Token) :
    List Token → List Token → Prop where
  | rest {r} :
    r <:+ us →
    Closes depth r →
    Before v v' depth us (r ++ v) (r ++ v')

/-- The readers come to the same, and do so before `v` and `v'`. -/
abbrev Abreast (v v' : List Token) (depth : Nat) (us : List Token) {R R' : Type} [Outcome R α]
    [Outcome R' α] : Except Failure R → Except Failure R' → Prop :=
  Parallel v v' (Before v v' depth) us

section Parallel

variable {β R R' S S' : Type} [Outcome R α] [Outcome R' α] [Outcome S β] [Outcome S' β]
  {T : List Token → List Token → List Token → Prop} {us' ts ts' : List Token}

/-- What is left of fewer tokens is left of more. -/
lemma Before.mono (le : us' <:+ us) {rest rest' : List Token}
    (h : Before v v' depth us' rest rest') : Before v v' depth us rest rest' := by
  cases h with
  | rest le' closes => exact .rest (le'.trans le) closes

/-- Readers that come to the same do so with any rests that these are. -/
lemma Parallel.imp {T' : List Token → List Token → List Token → Prop} {x : Except Failure R}
    {y : Except Failure R'} (h : Parallel v v' T us x y)
    (imp : ∀ {rest rest'}, T us rest rest' → T' us rest rest') : Parallel v v' T' us x y := by
  cases h with
  | reads rests read read' => exact .reads (imp rests) read read'
  | fails le => exact .fails le

/-- Readers that come to a value each on the spot. -/
lemma Abreast.ok {r : List Token} {x : R} {y : R'} (le : r <:+ us) (closes : Closes depth r)
    (value : Outcome.value x = Outcome.value y) (rest : Outcome.rest x = r ++ v)
    (rest' : Outcome.rest y = r ++ v') : Abreast v v' depth us (.ok x) (.ok y) :=
  .reads (.rest le closes) (reads_ok.2 ⟨rfl, rest⟩) (reads_ok.2 ⟨value.symm, rest'⟩)

/-- Readers that go on, in parallel, after readers that have gone abreast. -/
lemma Parallel.bind (mono : ∀ {r us}, r <:+ us → ∀ {rest rest'}, T r rest rest' → T us rest rest')
    {x : Except Failure R} {y : Except Failure R'} {f : R → Except Failure S}
    {g : R' → Except Failure S'} (le : us' <:+ us) (h : Abreast v v' depth us' x y)
    (next : ∀ q q' r, Closes depth r → Outcome.value q = Outcome.value q' →
      Outcome.rest q = r ++ v → Outcome.rest q' = r ++ v' → Parallel v v' T r (f q) (g q')) :
    Parallel v v' T us (x >>= f) (y >>= g) := by
  cases h with
  | fails le' => exact .fails (le'.trans le)
  | reads rests read read' =>
    obtain ⟨q, rfl, rfl, rest⟩ := read
    obtain ⟨q', rfl, value, rest'⟩ := read'
    cases rests with
    | rest le' closes =>
      show Parallel v v' T us (f q) (g q')
      have further := next q q' _ closes value.symm rest rest'
      generalize f q = x, g q' = y at further
      cases further with
      | reads rests read read' => exact .reads (mono (le'.trans le) rests) read read'
      | fails le'' => exact .fails (le''.trans (le'.trans le))

/-- Readers that go on, in parallel, after readers that have taken something. -/
lemma Parallel.bindParsed
    (mono : ∀ {r us}, r <:+ us → ∀ {rest rest'}, T r rest rest' → T us rest rest')
    {x : Except Failure (Parsed α ts)} {y : Except Failure (Parsed α ts')}
    {f : Parsed α ts → Except Failure S} {g : Parsed α ts' → Except Failure S'} (le : us' <:+ us)
    (h : Abreast v v' depth us' x y)
    (next : ∀ a r lt lt', Closes depth r →
      Parallel v v' T r (f ⟨a, r ++ v, lt⟩) (g ⟨a, r ++ v', lt'⟩)) :
    Parallel v v' T us (x >>= f) (y >>= g) := by
  refine Parallel.bind mono le h fun q q' r closes value rest rest' => ?_
  obtain ⟨a, _, lt⟩ := q
  obtain ⟨_, _, lt'⟩ := q'
  cases value
  cases rest
  cases rest'
  exact next a r lt lt' closes

/-- Readers that go on abreast after readers that have gone abreast. -/
lemma Abreast.bind {x : Except Failure (Parsed α ts)} {y : Except Failure (Parsed α ts')}
    {f : Parsed α ts → Except Failure S} {g : Parsed α ts' → Except Failure S'} (le : us' <:+ us)
    (h : Abreast v v' depth us' x y)
    (next : ∀ a r lt lt', Closes depth r →
      Abreast v v' depth' r (f ⟨a, r ++ v, lt⟩) (g ⟨a, r ++ v', lt'⟩)) :
    Abreast v v' depth' us (x >>= f) (y >>= g) :=
  Parallel.bindParsed Before.mono le h next

/-- The same after readers that may take nothing. -/
lemma Abreast.bindExtended {x : Except Failure (Extended α ts)}
    {y : Except Failure (Extended α ts')} {f : Extended α ts → Except Failure S}
    {g : Extended α ts' → Except Failure S'} (le : us' <:+ us) (h : Abreast v v' depth us' x y)
    (next : ∀ a r le le', Closes depth r →
      Abreast v v' depth' r (f ⟨a, r ++ v, le⟩) (g ⟨a, r ++ v', le'⟩)) :
    Abreast v v' depth' us (x >>= f) (y >>= g) := by
  refine Parallel.bind Before.mono le h fun q q' r closes value rest rest' => ?_
  obtain ⟨a, _, le⟩ := q
  obtain ⟨_, _, le'⟩ := q'
  cases value
  cases rest
  cases rest'
  exact next a r le le' closes

end Parallel

/-- What a wall begins, no reader of an expression goes on with. -/
lemma not_lt_binding_of_isWall {context : Precedence} {kind : TokenKind} (wall : IsWall kind) :
    ¬ context < binding kind := by
  rcases wall with rfl | rfl | rfl <;> exact Nat.not_lt_zero _

/-- What a wall may be may come next where a wall stands. -/
lemma next_append {P : TokenKind → Prop} (blunt : Next IsWall v) (walls : ∀ k, IsWall k → P k)
    (h : Next P us) : Next P (us ++ v) := by
  cases us with
  | nil => exact blunt.mono walls
  | cons t us => exact h

/-- A kind that is no wall does not come next where a wall stands. -/
lemma next_ne_append {kind : TokenKind} (blunt : Next IsWall v) (not : ¬ IsWall kind)
    (h : Next (· ≠ kind) us) : Next (· ≠ kind) (us ++ v) :=
  next_append blunt (fun _ wall same => not (same ▸ wall)) h

/-- A kind that is no wall is not found at a wall. -/
lemma expect_wall {kind : TokenKind} (blunt : Next IsWall v) (not : ¬ IsWall kind) :
    expect kind v = fail (.missing kind) v := by
  unfold expect
  split
  · rfl
  · refine if_neg fun same => not ?_
    exact same ▸ next_cons.1 blunt

/-- No operand begins at a wall. -/
lemma operand_wall (blunt : Next IsWall v) : operand v = fail .noExpression v := by
  cases v with
  | nil => rw [operand]
  | cons t v =>
    obtain ⟨kind, lexeme, span⟩ := t
    have wall : IsWall kind := next_cons.1 blunt
    rcases wall with rfl | rfl | rfl <;> rw [operand] <;> simp

section Readers

variable (blunt : Next IsWall v) (blunt' : Next IsWall v')

include blunt blunt'

/-- Readers that expect a kind which is no wall go abreast. -/
lemma expect_abreast {kind : TokenKind} (not : ¬ IsWall kind)
    (step : ∀ {t ts}, t.kind = kind → Closes depth (t :: ts) → Closes depth' ts)
    (closes : Closes depth us) :
    Abreast v v' depth' us (expect kind (us ++ v)) (expect kind (us ++ v')) := by
  cases us with
  | nil =>
    rw [List.nil_append, List.nil_append, expect_wall blunt not, expect_wall blunt' not]
    exact .fails (r := []) List.suffix_rfl
  | cons t us =>
    rw [List.cons_append, List.cons_append, expect, expect]
    split
    · rename_i same
      exact .ok (List.suffix_cons t us) (step same closes) rfl rfl rfl
    · exact .fails (r := t :: us) List.suffix_rfl

/-- A token that is neither a wall nor a brace. -/
lemma plain_abreast {kind : TokenKind} (not : ¬ IsWall kind) (other : ¬ IsBrace kind)
    (closes : Closes depth us) :
    Abreast v v' depth us (expect kind (us ++ v)) (expect kind (us ++ v')) :=
  expect_abreast blunt blunt' not (fun same closes => (closes_other (same ▸ other)).1 closes) closes

/-- Readers of a name go abreast. -/
lemma name_abreast (closes : Closes depth us) :
    Abreast v v' depth us (name (us ++ v)) (name (us ++ v')) :=
  (plain_abreast blunt blunt' (by decide) (by decide) closes).bind List.suffix_rfl
    fun t r _ _ closes => .ok List.suffix_rfl closes rfl rfl rfl

/-- Readers of further parameters go abreast. -/
lemma moreParams_abreast (closes : Closes depth us) :
    Abreast v v' depth us (moreParams (us ++ v)) (moreParams (us ++ v')) := by
  induction n : us.length using Nat.strongRecOn generalizing us with
  | ind n ih =>
    subst n
    rcases next_or .comma us with ⟨⟨_, lexeme, span⟩, us, rfl, isComma⟩ | notComma
    · cases isComma
      have closes := (closes_other (by simp [IsBrace])).1 closes
      rw [List.cons_append, List.cons_append, moreParams, moreParams]
      refine (name_abreast blunt blunt' closes).bind (List.suffix_cons _ _)
        fun param r lt _ closes => ?_
      exact (ih _ (by grind) closes rfl).bind List.suffix_rfl
        fun others r _ _ closes => .ok List.suffix_rfl closes rfl rfl rfl
    · rw [moreParams, moreParams]
      · exact (plain_abreast blunt blunt' (by decide) (by decide) closes).bind List.suffix_rfl
          fun t r _ _ closes => .ok List.suffix_rfl closes rfl rfl rfl
      · exact not_cons_of_next (next_ne_append blunt' (by decide) notComma)
      · exact not_cons_of_next (next_ne_append blunt (by decide) notComma)

/-- Readers of parameters go abreast. -/
lemma params_abreast (closes : Closes depth us) :
    Abreast v v' depth us (params (us ++ v)) (params (us ++ v')) := by
  rcases next_or .rightParen us with ⟨⟨_, lexeme, span⟩, us, rfl, kind⟩ | notNone
  · cases kind
    have closes := (closes_other (by simp [IsBrace])).1 closes
    rw [List.cons_append, List.cons_append, params, params]
    exact .ok (List.suffix_cons _ _) closes rfl rfl rfl
  · rw [params, params]
    · exact (name_abreast blunt blunt' closes).bind List.suffix_rfl fun param r _ _ closes =>
        (moreParams_abreast blunt blunt' closes).bind List.suffix_rfl fun others r _ _ closes =>
          .ok List.suffix_rfl closes rfl rfl rfl
    · exact not_cons_of_next (next_ne_append blunt' (by decide) notNone)
    · exact not_cons_of_next (next_ne_append blunt (by decide) notNone)

end Readers

/-- The readers that call each other go abreast through `us`. -/
structure Walled (v v' us : List Token) : Prop where
  expression : ∀ {context depth}, Closes depth us → Abreast v v' depth us
    (expression context (us ++ v)) (expression context (us ++ v'))
  operators : ∀ {context left depth}, Closes depth us → Abreast v v' depth us
    (operators context left (us ++ v)) (operators context left (us ++ v'))
  arguments : ∀ {depth}, Closes depth us → Abreast v v' depth us
    (arguments (us ++ v)) (arguments (us ++ v'))
  moreArguments : ∀ {depth}, Closes depth us → Abreast v v' depth us
    (moreArguments (us ++ v)) (moreArguments (us ++ v'))
  block : ∀ {depth}, Closes depth us → Abreast v v' depth us (block (us ++ v)) (block (us ++ v'))
  body : ∀ {depth}, Closes (depth + 1) us → Abreast v v' depth us
    (body (us ++ v)) (body (us ++ v'))

section Readers

variable (blunt : Next IsWall v) (blunt' : Next IsWall v')
  (ih : ∀ {r : List Token}, r.length < us.length → Walled v v' r)

include blunt blunt' ih

/-- Readers of an alternative go abreast if readers of blocks do. -/
lemma otherwise_abreast (closes : Closes depth us) :
    Abreast v v' depth us (otherwise (us ++ v)) (otherwise (us ++ v')) := by
  rcases next_or .elseWord us with ⟨⟨_, lexeme, span⟩, us, rfl, isElse⟩ | notElse
  · cases isElse
    have closes := (closes_other (by simp [IsBrace])).1 closes
    rw [List.cons_append, List.cons_append, otherwise, otherwise]
    exact ((ih (by simp)).block closes).bind (List.suffix_cons _ _)
      fun alternative r _ _ closes => .ok List.suffix_rfl closes rfl rfl rfl
  · rw [otherwise, otherwise]
    · exact .ok List.suffix_rfl closes rfl rfl rfl
    · exact not_cons_of_next (next_ne_append blunt' (by decide) notElse)
    · exact not_cons_of_next (next_ne_append blunt (by decide) notElse)

/-- Readers of an operand go abreast if those of shorter tokens do. -/
lemma operand_abreast (closes : Closes depth us) :
    Abreast v v' depth us (operand (us ++ v)) (operand (us ++ v')) := by
  cases us with
  | nil =>
    rw [List.nil_append, List.nil_append, operand_wall blunt, operand_wall blunt']
    exact .fails (r := []) List.suffix_rfl
  | cons t us =>
    obtain ⟨kind, lexeme, span⟩ := t
    -- Both texts have this token in front of the wall, so both readers take it.
    have inner (other : ¬ IsBrace kind) : Closes depth us := (closes_other other).1 closes
    rw [List.cons_append, List.cons_append]
    cases kind with
    | identifier | string | trueWord | falseWord =>
      rw [operand, operand]
      exact .ok (List.suffix_cons _ _) (inner (by decide)) rfl rfl rfl
    | int =>
      rw [operand, operand]
      cases Numeral.int64? lexeme with
      | none => exact .fails (r := _ :: us) List.suffix_rfl
      | some n => exact .ok (List.suffix_cons _ _) (inner (by decide)) rfl rfl rfl
    | minus | bang =>
      rw [operand, operand]
      exact ((ih (by simp)).expression (inner (by decide))).bind (List.suffix_cons _ _)
        fun value r _ _ closes => .ok List.suffix_rfl closes rfl rfl rfl
    | leftParen =>
      rw [operand, operand]
      refine ((ih (by simp)).expression (inner (by decide))).bind (List.suffix_cons _ _)
        fun value r _ _ closes => ?_
      exact (plain_abreast blunt blunt' (by decide) (by decide) closes).bind List.suffix_rfl
        fun t r _ _ closes => .ok List.suffix_rfl closes rfl rfl rfl
    | ifWord =>
      rw [operand, operand]
      refine (plain_abreast blunt blunt' (by decide) (by decide) (inner (by decide))).bind
        (List.suffix_cons _ _) fun _ r₁ lt₁ _ closes => ?_
      refine ((ih (by grind)).expression closes).bind List.suffix_rfl
        fun condition r₂ lt₂ _ closes => ?_
      refine (plain_abreast blunt blunt' (by decide) (by decide) closes).bind List.suffix_rfl
        fun _ r₃ lt₃ _ closes => ?_
      refine ((ih (by grind)).block closes).bind List.suffix_rfl
        fun consequence r₄ lt₄ _ closes => ?_
      refine (otherwise_abreast blunt blunt' (fun lt => ih (by grind)) closes).bindExtended
        List.suffix_rfl fun alternative r₅ _ _ closes => ?_
      exact .ok List.suffix_rfl closes rfl rfl rfl
    | fnWord =>
      rw [operand, operand]
      refine (plain_abreast blunt blunt' (by decide) (by decide) (inner (by decide))).bind
        (List.suffix_cons _ _) fun _ r₁ lt₁ _ closes => ?_
      refine (params_abreast blunt blunt' closes).bind List.suffix_rfl
        fun names r₂ lt₂ _ closes => ?_
      refine ((ih (by grind)).block closes).bind List.suffix_rfl fun body r₃ _ _ closes => ?_
      exact .ok List.suffix_rfl closes rfl rfl rfl
    | _ =>
      rw [operand, operand]
      · exact .fails (r := _ :: us) List.suffix_rfl
      all_goals simp

/-- Readers of arguments go abreast if those of the first one do. -/
lemma arguments_abreast (closes : Closes depth us)
    (first : Abreast v v' depth us (expression .lowest (us ++ v)) (expression .lowest (us ++ v'))) :
    Abreast v v' depth us (arguments (us ++ v)) (arguments (us ++ v')) := by
  rcases next_or .rightParen us with ⟨⟨_, lexeme, span⟩, us, rfl, kind⟩ | notNone
  · cases kind
    have closes := (closes_other (by simp [IsBrace])).1 closes
    rw [List.cons_append, List.cons_append, arguments, arguments]
    exact .ok (List.suffix_cons _ _) closes rfl rfl rfl
  · rw [arguments, arguments]
    · refine first.bind List.suffix_rfl fun first r lt _ closes => ?_
      refine ((ih (by grind)).moreArguments closes).bind List.suffix_rfl
        fun others r _ _ closes => ?_
      exact .ok List.suffix_rfl closes rfl rfl rfl
    · exact not_cons_of_next (next_ne_append blunt' (by decide) notNone)
    · exact not_cons_of_next (next_ne_append blunt (by decide) notNone)

/-- Readers of further arguments go abreast if those of shorter tokens do. -/
lemma moreArguments_abreast (closes : Closes depth us) :
    Abreast v v' depth us (moreArguments (us ++ v)) (moreArguments (us ++ v')) := by
  rcases next_or .comma us with ⟨⟨_, lexeme, span⟩, us, rfl, isComma⟩ | notComma
  · cases isComma
    have closes := (closes_other (by simp [IsBrace])).1 closes
    rw [List.cons_append, List.cons_append, moreArguments, moreArguments]
    refine ((ih (by simp)).expression closes).bind (List.suffix_cons _ _)
      fun next r lt _ closes => ?_
    refine ((ih (by grind)).moreArguments closes).bind List.suffix_rfl fun others r _ _ closes => ?_
    exact .ok List.suffix_rfl closes rfl rfl rfl
  · rw [moreArguments, moreArguments]
    · exact (plain_abreast blunt blunt' (by decide) (by decide) closes).bind List.suffix_rfl
        fun t r _ _ closes => .ok List.suffix_rfl closes rfl rfl rfl
    · exact not_cons_of_next (next_ne_append blunt' (by decide) notComma)
    · exact not_cons_of_next (next_ne_append blunt (by decide) notComma)

/-- Readers of operators go abreast if those of shorter tokens do. -/
lemma operators_abreast {context : Precedence} {left : Expr} (closes : Closes depth us) :
    Abreast v v' depth us (operators context left (us ++ v))
      (operators context left (us ++ v')) := by
  by_cases stop : Next (fun k => ¬ context < binding k) us
  · have ends := next_append blunt (fun _ => not_lt_binding_of_isWall) stop
    have ends' := next_append blunt' (fun _ => not_lt_binding_of_isWall) stop
    exact .reads (.rest List.suffix_rfl closes) ((reads_operators_stop ends).2 ⟨rfl, rfl⟩)
      ((reads_operators_stop ends').2 ⟨rfl, rfl⟩)
  · cases us with
    | nil => exact absurd next_nil stop
    | cons t us =>
      obtain ⟨kind, lexeme, span⟩ := t
      have below : context < binding kind := by simpa using stop
      rw [List.cons_append, List.cons_append, operators, operators]
      rcases of_lt_binding below with ⟨op, found, binds⟩ | ⟨rfl, binds⟩
      · rw [binds] at below
        have other : ¬ IsBrace kind := by
          rintro (rfl | rfl) <;> cases found
        simp only [found, if_pos below]
        refine ((ih (by simp)).expression ((closes_other other).1 closes)).bind
          (List.suffix_cons _ _) fun right r lt _ closes => ?_
        refine ((ih (by grind)).operators closes).bindExtended List.suffix_rfl
          fun whole r _ _ closes => ?_
        exact .ok List.suffix_rfl closes rfl rfl rfl
      · rw [binds] at below
        simp only [InfixOp.ofKind?, if_pos below, true_and]
        refine ((ih (by simp)).arguments ((closes_other (by simp [IsBrace])).1 closes)).bind
          (List.suffix_cons _ _) fun args r lt _ closes => ?_
        refine ((ih (by grind)).operators closes).bindExtended List.suffix_rfl
          fun whole r _ _ closes => ?_
        exact .ok List.suffix_rfl closes rfl rfl rfl

/-- Readers of an expression go abreast if those of its operand do. -/
lemma expression_abreast {context : Precedence} (closes : Closes depth us) :
    Abreast v v' depth us (expression context (us ++ v)) (expression context (us ++ v')) := by
  rw [expression, expression]
  refine (operand_abreast blunt blunt' ih closes).bind List.suffix_rfl fun first r lt _ closes => ?_
  refine ((ih (by grind)).operators closes).bindExtended List.suffix_rfl
    fun whole r _ _ closes => ?_
  exact .ok List.suffix_rfl closes rfl rfl rfl

/-- Readers of a block go abreast if those of shorter tokens do. -/
lemma block_abreast (closes : Closes depth us) :
    Abreast v v' depth us (block (us ++ v)) (block (us ++ v')) := by
  rw [block, block]
  refine (expect_abreast blunt blunt' (by decide) (fun kind => (closes_leftBrace kind).1)
    closes).bind List.suffix_rfl fun start r lt _ closes => ?_
  refine ((ih (by grind)).body closes).bind List.suffix_rfl fun statements r _ _ closes => ?_
  exact .ok List.suffix_rfl closes rfl rfl rfl

end Readers

/-- Walls that look alike: the same semicolon, or keywords of statements, if anything. -/
inductive Walls : List Token → List Token → Prop where
  | semicolon {s P P'} :
    s.kind = .semicolon →
    Walls (s :: P) (s :: P')
  | keyword {u u'} :
    Next (fun k => k = .letWord ∨ k = .returnWord) u →
    Next (fun k => k = .letWord ∨ k = .returnWord) u' →
    Walls u u'

/-- What a statement leaves: some of the tokens `us`, or what is behind a semicolon that was the
wall. -/
inductive Onward (v v' : List Token) (depth : Nat) (us : List Token) :
    List Token → List Token → Prop where
  | before {rest rest'} :
    Before v v' depth us rest rest' →
    Onward v v' depth us rest rest'
  | past {s rest rest'} :
    depth = 0 →
    s.kind = .semicolon →
    v = s :: rest →
    v' = s :: rest' →
    Onward v v' depth us rest rest'

/-- Behind a wall on both sides a wall comes next on both sides. -/
lemma Walls.blunt (h : Walls v v') : Next IsWall v ∧ Next IsWall v' := by
  cases h with
  | semicolon kind => exact ⟨next_cons.2 (.inl kind), next_cons.2 (.inl kind)⟩
  | keyword words words' => exact ⟨words.mono fun _ => .inr, words'.mono fun _ => .inr⟩

/-- What is onward of fewer tokens is onward of more. -/
lemma Onward.mono {r : List Token} (le : r <:+ us) {rest rest' : List Token}
    (h : Onward v v' depth r rest rest') : Onward v v' depth us rest rest' := by
  cases h with
  | before rests => exact .before (rests.mono le)
  | past none kind eq eq' => exact .past none kind eq eq'

/-- A wall is outside all braces. -/
lemma Onward.inside {rest rest' : List Token} (h : Onward v v' (depth + 1) us rest rest') :
    Before v v' (depth + 1) us rest rest' := by
  cases h with
  | before rests => exact rests
  | past none => cases none

/-- A statement without a semicolon ends where it is. -/
lemma semicolon_none {w : List Token} {span : Span} (h : Next (· ≠ .semicolon) w) :
    semicolon span w = (span, ⟨w, Nat.le_refl _⟩) := by
  unfold semicolon
  split
  · exact absurd rfl (next_cons.1 h)
  · rfl

/-- The semicolon that ends a statement may be the wall. -/
lemma semicolon_onward (span : Span) (walls : Walls v v') (closes : Closes depth us) :
    (semicolon span (us ++ v')).1 = (semicolon span (us ++ v)).1 ∧
      Onward v v' depth us (semicolon span (us ++ v)).2.1 (semicolon span (us ++ v')).2.1 := by
  rcases next_or .semicolon us with ⟨⟨_, lexeme, stop⟩, us, rfl, kind⟩ | none
  · cases kind
    have closes := (closes_other (by simp [IsBrace])).1 closes
    exact ⟨rfl, .before (.rest (List.suffix_cons _ us) closes)⟩
  · cases us with
    | cons t us =>
      rw [semicolon_none (w := t :: us ++ v) none, semicolon_none (w := t :: us ++ v') none]
      exact ⟨rfl, .before (.rest List.suffix_rfl closes)⟩
    | nil =>
      cases walls with
      | @semicolon s P P' kind =>
        obtain ⟨_, lexeme, stop⟩ := s
        cases kind
        exact ⟨rfl, .past closes rfl rfl rfl⟩
      | keyword words words' =>
        have words : Next (· ≠ .semicolon) v := words.mono (by rintro _ (rfl | rfl) <;> decide)
        have words' : Next (· ≠ .semicolon) v' := words'.mono (by rintro _ (rfl | rfl) <;> decide)
        rw [List.nil_append, List.nil_append, semicolon_none words, semicolon_none words']
        exact ⟨rfl, .before (.rest (r := []) List.suffix_rfl closes)⟩

section Statements

variable (walls : Walls v v') (ih : ∀ {r : List Token}, r.length < us.length → Walled v v' r)

include walls ih

/-- Readers of a statement run in parallel, and may take a semicolon that is the wall. -/
lemma statement_parallel (closes : Closes depth us) (some : us ≠ []) :
    Parallel v v' (Onward v v' depth) us (statement (us ++ v)) (statement (us ++ v')) := by
  obtain ⟨blunt, blunt'⟩ := walls.blunt
  obtain ⟨⟨kind, lexeme, span⟩, us, rfl⟩ := List.exists_cons_of_ne_nil some
  have inner (other : ¬ IsBrace kind) : Closes depth us := (closes_other other).1 closes
  by_cases isLet : kind = .letWord
  · cases isLet
    rw [List.cons_append, List.cons_append, statement, statement]
    refine Parallel.bindParsed Onward.mono (List.suffix_cons _ _)
      (name_abreast blunt blunt' (inner (by decide))) fun bound r₁ lt₁ _ closes => ?_
    refine Parallel.bindParsed Onward.mono List.suffix_rfl
      (plain_abreast blunt blunt' (by decide) (by decide) closes) fun _ r₂ lt₂ _ closes => ?_
    refine Parallel.bindParsed Onward.mono List.suffix_rfl
      ((ih (by grind)).expression closes) fun value r₃ _ _ closes => ?_
    obtain ⟨same, rests⟩ := semicolon_onward (span.merge value.span) walls closes
    exact .reads rests (reads_ok.2 ⟨rfl, rfl⟩) (reads_ok.2 ⟨congrArg (Stmt.letStmt _ _) same, rfl⟩)
  · by_cases isReturn : kind = .returnWord
    · cases isReturn
      rw [List.cons_append, List.cons_append, statement, statement]
      refine Parallel.bindParsed Onward.mono (List.suffix_cons _ _)
        ((ih (by simp)).expression (inner (by decide))) fun value r _ _ closes => ?_
      obtain ⟨same, rests⟩ := semicolon_onward (span.merge value.span) walls closes
      exact .reads rests (reads_ok.2 ⟨rfl, rfl⟩)
        (reads_ok.2 ⟨congrArg (Stmt.returnStmt _) same, rfl⟩)
    · rw [statement, statement]
      · refine Parallel.bindParsed Onward.mono List.suffix_rfl
          (expression_abreast blunt blunt' ih closes) fun value r _ _ closes => ?_
        obtain ⟨same, rests⟩ := semicolon_onward value.span walls closes
        exact .reads rests (reads_ok.2 ⟨rfl, rfl⟩)
          (reads_ok.2 ⟨congrArg (Stmt.exprStmt _) same, rfl⟩)
      all_goals
        rintro _ _ _ eq
        cases eq
        contradiction

/-- Readers of the body of a block go abreast if those of shorter tokens do. -/
lemma body_abreast (closes : Closes (depth + 1) us) :
    Abreast v v' depth us (body (us ++ v)) (body (us ++ v')) := by
  cases us with
  | nil => cases closes
  | cons t us =>
    by_cases kind : t.kind = .rightBrace
    · have inner := (closes_rightBrace kind).1 closes
      obtain ⟨_, lexeme, span⟩ := t
      cases kind
      rw [List.cons_append, List.cons_append, body, body]
      exact .ok (List.suffix_cons _ _) inner rfl rfl rfl
    · have first : Abreast v v' (depth + 1) (t :: us) (statement (t :: us ++ v))
          (statement (t :: us ++ v')) :=
        (statement_parallel walls ih closes (List.cons_ne_nil t us)).imp Onward.inside
      rw [List.cons_append, List.cons_append, body, body]
      · refine first.bind List.suffix_rfl fun first r lt _ closes => ?_
        refine ((ih (by grind)).body closes).bind List.suffix_rfl fun others r _ _ closes => ?_
        exact .ok List.suffix_rfl closes rfl rfl rfl
      all_goals
        rintro _ _ rfl
        exact kind rfl

end Statements

/-- By induction on the number of tokens, all readers go abreast up to a wall. -/
lemma walled (walls : Walls v v') (us : List Token) : Walled v v' us := by
  induction n : us.length using Nat.strongRecOn generalizing us with
  | ind n ih =>
    subst n
    have ih {r : List Token} (lt : r.length < us.length) : Walled v v' r := ih _ lt r rfl
    obtain ⟨blunt, blunt'⟩ := walls.blunt
    refine ⟨?_, ?_, ?_, ?_, ?_, ?_⟩
    · exact expression_abreast blunt blunt' ih
    · exact operators_abreast blunt blunt' ih
    · exact fun closes => arguments_abreast blunt blunt' ih closes
        (expression_abreast blunt blunt' ih closes)
    · exact moreArguments_abreast blunt blunt' ih
    · exact block_abreast blunt blunt' ih
    · exact body_abreast walls ih

/-- A statement that begins before a wall is read up to the wall, whatever is behind the wall. -/
theorem statement_walled (walls : Walls v v') (closes : Closes depth us) (some : us ≠ []) :
    Parallel v v' (Onward v v' depth) us (statement (us ++ v)) (statement (us ++ v')) :=
  statement_parallel walls (fun _ => walled walls _) closes some

end Monkey.Parser
