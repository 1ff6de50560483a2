import Monkey.Proofs.Grammar.Stratified
import Monkey.Proofs.Syntax.Nodes

/-!
# Spans of derived trees

The tokens of a text come one behind the other, and so do the parts of what they derive: keywords,
operators and brackets on the one hand, and the children of a node on the other. A node stands from
the first of these parts to the last, so its children lie within it; the parentheses of a group are
none of them. Main statements: `Derives.nests` and `DerivesStatements.row`.
-/

namespace Monkey.Grammar

open SyntaxNode

/-- Tokens that are not empty, one behind the other. -/
structure Orderly (ts : List Token) : Prop where
  nonempty : ∀ t ∈ ts, t.span.start < t.span.stop
  ordered : ts.Pairwise fun t t' => t.span.stop ≤ t'.span.start

/-- Spans on tokens, one behind the other. -/
structure Strip (ts : List Token) (spans : List Span) : Prop where
  ofTokens : ∀ s ∈ spans, s.OfTokens ts
  ordered : spans.Pairwise fun s s' => s.stop ≤ s'.start

variable {v w ts ts' : List Token} {t : Token} {a b : Span} {spans spans' : List Span}
  {node : SyntaxNode}

section Strips

/-- Tokens are orderly exactly if both parts are, and the first part stands before the second. -/
lemma orderly_append : Orderly (v ++ w) ↔
    Orderly v ∧ Orderly w ∧ ∀ t ∈ v, ∀ t' ∈ w, t.span.stop ≤ t'.span.start := by
  constructor
  · rintro ⟨nonempty, ordered⟩
    obtain ⟨left, right, apart⟩ := List.pairwise_append.1 ordered
    exact ⟨⟨fun t mem => nonempty t (List.mem_append_left _ mem), left⟩,
      ⟨fun t mem => nonempty t (List.mem_append_right _ mem), right⟩, apart⟩
  · rintro ⟨left, right, apart⟩
    exact ⟨List.forall_mem_append.2 ⟨left.nonempty, right.nonempty⟩,
      List.pairwise_append.2 ⟨left.ordered, right.ordered, apart⟩⟩

/-- Behind the first one tokens are orderly. -/
lemma Orderly.tail (h : Orderly (t :: w)) : Orderly w :=
  ((orderly_append (v := [t])).1 h).2.1

/-- The first part of orderly tokens is orderly. -/
lemma Orderly.left (h : Orderly (v ++ w)) : Orderly v := (orderly_append.1 h).1

/-- The last part of orderly tokens is orderly. -/
lemma Orderly.right (h : Orderly (v ++ w)) : Orderly w := (orderly_append.1 h).2.1

/-- No spans are a strip. -/
lemma Strip.nil : Strip ts [] := ⟨nofun, .nil⟩

/-- One span on tokens is a strip. -/
lemma Strip.single (h : a.OfTokens ts) : Strip ts [a] :=
  ⟨List.forall_mem_singleton.2 h, List.pairwise_singleton _ _⟩

/-- A strip on tokens is one on more tokens. -/
lemma Strip.mono (h : Strip ts spans) (sub : ts ⊆ ts') : Strip ts' spans :=
  ⟨fun s mem => (h.ofTokens s mem).mono sub, h.ordered⟩

/-- Spans on different tokens come in the order of these. -/
lemma Strip.append (orderly : Orderly (v ++ w)) (h : Strip v spans) (h' : Strip w spans') :
    Strip (v ++ w) (spans ++ spans') := by
  refine ⟨List.forall_mem_append.2 ⟨fun s mem => (h.ofTokens s mem).mono (by simp),
    fun s mem => (h'.ofTokens s mem).mono (by simp)⟩,
    List.pairwise_append.2 ⟨h.ordered, h'.ordered, fun s mem s' mem' => ?_⟩⟩
  obtain ⟨t, left, stop⟩ := (h.ofTokens s mem).stop
  obtain ⟨t', right, start⟩ := (h'.ofTokens s' mem').start
  rw [← stop, ← start]
  exact (orderly_append.1 orderly).2.2 t left t' right

/-- A token in front of spans on tokens behind it. -/
lemma Strip.cons (orderly : Orderly (t :: w)) (h : Strip w spans) :
    Strip (t :: w) (t.span :: spans) := by
  have here : t.span.OfTokens [t] :=
    ⟨orderly.nonempty t (by simp), ⟨t, by simp, rfl⟩, ⟨t, by simp, rfl⟩⟩
  exact .append (v := [t]) orderly (.single here) h

/-- All spans lie between the first and the last one. -/
lemma Strip.within (h : Strip ts spans) (first : spans.head? = some a)
    (last : spans.getLast? = some b) : ∀ s ∈ spans, a.start ≤ s.start ∧ s.stop ≤ b.stop := by
  intro s mem
  refine ⟨?_, ?_⟩
  · obtain ⟨others, rfl⟩ := List.head?_eq_some_iff.1 first
    rcases List.mem_cons.1 mem with rfl | other
    · exact Nat.le_refl _
    · have before := List.rel_of_pairwise_cons h.ordered other
      have nonempty := (h.ofTokens a (by simp)).nonempty
      omega
  · obtain ⟨others, rfl⟩ := List.getLast?_eq_some_iff.1 last
    rcases List.mem_append.1 mem with other | here
    · have before := (List.pairwise_append.1 h.ordered).2.2 s other b (by simp)
      have nonempty := (h.ofTokens b (by simp)).nonempty
      omega
    · obtain rfl := List.mem_singleton.1 here
      exact Nat.le_refl _

/-- The smallest span that covers two spans on tokens is on them too. -/
lemma OfTokens.merge (h : a.OfTokens ts) (h' : b.OfTokens ts) : (a.merge b).OfTokens ts := by
  refine ⟨?_, ?_, ?_⟩
  · have := h.nonempty
    simp only [Span.merge]
    omega
  · rcases Nat.le_total a.start b.start with le | le
    · rw [Span.merge, Nat.min_eq_left le]
      exact h.start
    · rw [Span.merge, Nat.min_eq_right le]
      exact h'.start
  · rcases Nat.le_total a.stop b.stop with le | le
    · rw [Span.merge, Nat.max_eq_right le]
      exact h'.stop
    · rw [Span.merge, Nat.max_eq_left le]
      exact h.stop

/-- A node that stands from the first of some spans to the last, its children among them, is nested
if these are. -/
lemma Strip.nests (h : Strip ts spans) (first : spans.head? = some a)
    (last : spans.getLast? = some b) (span : node.span = a.merge b)
    (among : (node.children.map SyntaxNode.span).Sublist spans)
    (inner : ∀ child ∈ node.children, child.Nests ts) : node.Nests ts := by
  have within := h.within first last
  refine .node ⟨?_, fun child mem => ?_, ?_⟩ inner
  · rw [span]
    exact OfTokens.merge (h.ofTokens a (List.mem_of_mem_head? first))
      (h.ofTokens b (List.mem_of_getLast? last))
  · obtain ⟨start, stop⟩ := within _ (among.subset (List.mem_map_of_mem mem))
    rw [span]
    exact ⟨Nat.le_trans (Nat.min_le_left _ _) start, Nat.le_trans stop (Nat.le_max_right _ _)⟩
  · exact List.pairwise_map.1 (h.ordered.sublist among)

end Strips

/-- Nodes in the order of the source, each of which is nested. -/
structure Row (ts : List Token) (nodes : List SyntaxNode) : Prop where
  strip : Strip ts (nodes.map SyntaxNode.span)
  nests : ∀ node ∈ nodes, node.Nests ts

section Rows

variable {nodes nodes' : List SyntaxNode}

/-- No nodes are a row. -/
lemma Row.nil : Row ts [] := ⟨.nil, nofun⟩

/-- One node is a row. -/
lemma Row.single (h : node.Nests ts) : Row ts [node] :=
  ⟨.single h.ofTokens, List.forall_mem_singleton.2 h⟩

/-- A row on tokens is one on more tokens. -/
lemma Row.mono (h : Row ts nodes) (sub : ts ⊆ ts') : Row ts' nodes :=
  ⟨h.strip.mono sub, fun node mem => (h.nests node mem).mono sub⟩

/-- Rows on tokens one behind the other are a row. -/
lemma Row.append (orderly : Orderly (v ++ w)) (h : Row v nodes) (h' : Row w nodes') :
    Row (v ++ w) (nodes ++ nodes') := by
  refine ⟨?_, List.forall_mem_append.2 ⟨fun node mem => (h.nests node mem).mono (by simp),
    fun node mem => (h'.nests node mem).mono (by simp)⟩⟩
  rw [List.map_append]
  exact .append orderly h.strip h'.strip

end Rows

/-- A node that stands on one token, with nothing inside. -/
lemma nests_token (orderly : Orderly [t]) (span : node.span = t.span) (leaf : node.children = []) :
    Nests [t] node := by
  refine (Strip.cons orderly .nil).nests rfl rfl (span.trans (Span.merge_self _).symm) ?_ ?_
  · rw [leaf]
    exact List.nil_sublist _
  · rw [leaf]
    nofun

/-- The names of parameters are a row. -/
lemma Parameters.row {w : List Token} {params : List Identifier} (h : Parameters w params)
    (orderly : Orderly w) : Row w (params.map identifier) := by
  induction h with
  | none => exact .nil
  | last => exact .single (nests_token orderly rfl rfl)
  | @more t comma w _ _ _ _ _ ih =>
    have here : Orderly [t] := Orderly.left (w := comma :: w) orderly
    exact .append (v := [t]) orderly (.single (nests_token here rfl rfl))
      ((ih orderly.tail.tail).mono (by simp))

/-- The semicolon that ends a statement stands behind all that the statement is made up of. -/
lemma nests_endedBy {s : Stmt} (orderly : Orderly (v ++ [t])) (h : Nests v (.statement s)) :
    Nests (v ++ [t]) (.statement (s.endedBy t.span)) := by
  have strip : Strip (v ++ [t]) [s.span, t.span] :=
    .append orderly (.single h.ofTokens) (.cons orderly.right .nil)
  have same : (SyntaxNode.statement (s.endedBy t.span)).children =
      (SyntaxNode.statement s).children := by
    cases s <;> rfl
  have span : (SyntaxNode.statement (s.endedBy t.span)).span = s.span.merge t.span := by
    cases s <;> rfl
  have placed := h.wellPlaced
  refine .node ⟨?_, fun child mem => ?_, same ▸ placed.ordered⟩ fun child mem => ?_
  · rw [span]
    exact OfTokens.merge (strip.ofTokens _ (by simp)) (strip.ofTokens _ (by simp))
  · obtain ⟨start, stop⟩ := placed.within child (same ▸ mem)
    rw [span]
    exact ⟨Nat.le_trans (Nat.min_le_left _ _) start, Nat.le_trans stop (Nat.le_max_left _ _)⟩
  · exact (h.child child (same ▸ mem)).mono (by simp)

mutual

/-- The tree that orderly tokens derive is nested. -/
theorem Derives.nests {p : Precedence} {w : List Token} {e : Expr} :
    Derives p w e → Orderly w → Nests w (.expression e)
  | .tighter h, orderly => h.nests orderly
  -- Brackets and operators are in the strip, although they are no children: they part those.
  | @Derives.binary op t v w left right hl _ hr, orderly => by
    have nl := hl.nests orderly.left
    have nr := hr.nests orderly.right.tail
    have strip : Strip (v ++ t :: w) [left.span, t.span, right.span] :=
      .append orderly (.single nl.ofTokens) (.cons orderly.right (.single nr.ofTokens))
    refine strip.nests rfl rfl rfl (by simp [children, SyntaxNode.span]) ?_
    simpa [children] using ⟨nl.mono (by simp), nr.mono (by simp)⟩
  | @Derives.unary op t w operand _ h, orderly => by
    have n := h.nests orderly.tail
    have strip : Strip (t :: w) [t.span, operand.span] := .cons orderly (.single n.ofTokens)
    refine strip.nests rfl rfl rfl (by simp [children, SyntaxNode.span]) ?_
    simpa [children] using n.mono (by simp)
  | @Derives.call v opening w closing callee args hc _ ha _, orderly => by
    have nc := hc.nests orderly.left
    have na := ha.row orderly.right.tail.left
    have strip : Strip (v ++ opening :: (w ++ [closing]))
        (callee.span :: opening.span :: ((args.map expression).map SyntaxNode.span
          ++ [closing.span])) :=
      .append orderly (.single nc.ofTokens) (.cons orderly.right
        (.append orderly.right.tail na.strip (.cons orderly.right.tail.right .nil)))
    refine strip.nests (b := closing.span) rfl (by simp [List.getLast?_cons]) rfl ?_ ?_
    · simp [children, SyntaxNode.span]
    · refine List.forall_mem_cons.2 ⟨nc.mono (by simp), fun child mem => ?_⟩
      exact (na.nests child mem).mono fun _ mem => by simp [mem]
  | @Derives.identifier t _, orderly => by
    have n : Nests [t] (identifier ⟨t.lexeme, t.span⟩) := nests_token orderly rfl rfl
    refine (Strip.single n.ofTokens).nests rfl rfl (Span.merge_self _).symm ?_ ?_
    · simp [children, SyntaxNode.span]
    · simpa [children] using n
  | .integer _ _, orderly => nests_token orderly rfl rfl
  | .string _, orderly => nests_token orderly rfl rfl
  | .trueWord _, orderly => nests_token orderly rfl rfl
  | .falseWord _, orderly => nests_token orderly rfl rfl
  -- The parentheses are no part of the node, which is the one inside them.
  | .group _ h _, orderly => (h.nests orderly.tail.left).mono (by simp)
  | @Derives.conditional t opening v closing w condition consequence _ _ hc _ hb, orderly => by
    have nc := hc.nests orderly.tail.tail.left
    have nb := hb.nests orderly.tail.tail.right.tail
    have strip : Strip (t :: opening :: (v ++ closing :: w))
        [t.span, opening.span, condition.span, closing.span, consequence.span] :=
      .cons orderly (.cons orderly.tail (.append orderly.tail.tail (.single nc.ofTokens)
        (.cons orderly.tail.tail.right (.single nb.ofTokens))))
    refine strip.nests rfl rfl rfl (by simp [children, SyntaxNode.span]) ?_
    simpa [children] using ⟨nc.mono fun _ mem => by simp [mem], nb.mono fun _ mem => by simp [mem]⟩
  | @Derives.alternative t opening v closing w other w' condition consequence alternative _ _ hc _
      hb _ ha, orderly => by
    have rest := orderly.tail.tail.right.tail
    have nc := hc.nests orderly.tail.tail.left
    have nb := hb.nests rest.left
    have na := ha.nests rest.right.tail
    have strip : Strip (t :: opening :: (v ++ closing :: (w ++ other :: w')))
        [t.span, opening.span, condition.span, closing.span, consequence.span, other.span,
          alternative.span] :=
      .cons orderly (.cons orderly.tail (.append orderly.tail.tail (.single nc.ofTokens)
        (.cons orderly.tail.tail.right (.append rest (.single nb.ofTokens)
          (.cons rest.right (.single na.ofTokens))))))
    refine strip.nests rfl rfl rfl ?_ ?_
    · exact .cons _ (.cons _ (.cons_cons _ (.cons _ (.cons_cons _ (.cons _
        (.cons_cons _ .slnil))))))
    · simpa [children] using ⟨nc.mono fun _ mem => by simp [mem],
        nb.mono fun _ mem => by simp [mem], na.mono fun _ mem => by simp [mem]⟩
  | @Derives.function t opening v closing w params body _ _ hp _ hb, orderly => by
    have np := hp.row orderly.tail.tail.left
    have nb := hb.nests orderly.tail.tail.right.tail
    have strip : Strip (t :: opening :: (v ++ closing :: w))
        (t.span :: opening.span :: ((params.map identifier).map SyntaxNode.span
          ++ [closing.span, body.span])) :=
      .cons orderly (.cons orderly.tail (.append orderly.tail.tail np.strip
        (.cons orderly.tail.tail.right (.single nb.ofTokens))))
    refine strip.nests (b := body.span) rfl (by simp [List.getLast?_cons]) rfl ?_ ?_
    · simp [children, SyntaxNode.span]
    · refine List.forall_mem_append.2 ⟨fun child mem =>
        (np.nests child mem).mono fun _ mem => by simp [mem], ?_⟩
      exact List.forall_mem_singleton.2 (nb.mono fun _ mem => by simp [mem])

/-- Arguments that derive from orderly tokens are a row. -/
theorem DerivesArguments.row {w : List Token} {es : List Expr} :
    DerivesArguments w es → Orderly w → Row w (es.map expression)
  | .none, _ => .nil
  | .last h, orderly => .single (h.nests orderly)
  | .more h _ others, orderly =>
    .append orderly (.single (h.nests orderly.left))
      ((others.row orderly.right.tail).mono (by simp))

/-- A block that derives from orderly tokens has its children inside it. -/
theorem DerivesBlock.nests {w : List Token} {b : Block} :
    DerivesBlock w b → Orderly w → Nests w (.block b)
  | @DerivesBlock.braces opening w closing statements _ h _, orderly => by
    have row := h.row orderly.tail.left
    have strip : Strip (opening :: (w ++ [closing]))
        (opening.span :: ((statements.map statement).map SyntaxNode.span ++ [closing.span])) :=
      .cons orderly (.append orderly.tail row.strip (.cons orderly.tail.right .nil))
    refine strip.nests (b := closing.span) rfl (by simp [List.getLast?_cons]) rfl ?_
      fun child mem => ?_
    · simp [children, Block.statements]
    · exact (row.nests child mem).mono (by simp)

/-- A statement that derives from orderly tokens has its children inside it. -/
theorem DerivesStatement.nests {w : List Token} {s : Stmt} :
    DerivesStatement w s → Orderly w → Nests w (.statement s)
  | @DerivesStatement.letStmt t name equal w value _ _ _ h, orderly => by
    have n := h.nests orderly.tail.tail.tail
    have strip : Strip (t :: name :: equal :: w) [t.span, name.span, equal.span, value.span] :=
      .cons orderly (.cons orderly.tail (.cons orderly.tail.tail (.single n.ofTokens)))
    have bound : Nests [name] (identifier ⟨name.lexeme, name.span⟩) :=
      nests_token (Orderly.left (w := equal :: w) orderly.tail) rfl rfl
    refine strip.nests rfl rfl rfl (by simp [children, SyntaxNode.span]) ?_
    simpa [children] using ⟨bound.mono (by simp), n.mono fun _ mem => by simp [mem]⟩
  | @DerivesStatement.returnStmt t w value _ h, orderly => by
    have n := h.nests orderly.tail
    have strip : Strip (t :: w) [t.span, value.span] := .cons orderly (.single n.ofTokens)
    refine strip.nests rfl rfl rfl (by simp [children, SyntaxNode.span]) ?_
    simpa [children] using n.mono (by simp)
  | @DerivesStatement.exprStmt w value h, orderly => by
    have n := h.nests orderly
    refine (Strip.single n.ofTokens).nests rfl rfl (Span.merge_self _).symm ?_ ?_
    · simp [children, SyntaxNode.span]
    · simpa [children] using n

/-- The statements that orderly tokens derive are nested, and stand one behind the other. -/
theorem DerivesStatements.row {w : List Token} {statements : List Stmt} :
    DerivesStatements w statements → Orderly w → Row w (statements.map statement)
  | .none, _ => .nil
  | @DerivesStatements.ended v semicolon w _ _ h _ others, orderly => by
    rw [List.append_cons] at orderly ⊢
    exact .append orderly (.single (nests_endedBy orderly.left (h.nests orderly.left.left)))
      (others.row orderly.right)
  | .bare h _ others, orderly =>
    .append orderly (.single (h.nests orderly.left)) (others.row orderly.right)

end

end Monkey.Grammar
