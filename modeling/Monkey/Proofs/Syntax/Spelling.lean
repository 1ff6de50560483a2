import Monkey.Proofs.Syntax.Demand
import Monkey.Proofs.Text.Numeral
import Monkey.Proofs.Token.Scanning

/-!
# The tokens of rendered programs

A tree spelled as tokens, without a detour over text; and the text of a tree scans as its spelling,
as long as its names and constants are such as can be written. A word or a numeral needs a character
behind it that ends it; the text of a tree provides one everywhere but at its own end. Main
statement: `Program.scan_render`.
-/

namespace Monkey

/-- The text is a word of ASCII letters, digits and underscores that can be a name: it does not
begin with a digit and is no keyword. -/
def IsName (name : String) : Prop :=
  name ≠ "" ∧ (∀ c ∈ name.toList, c.isAlphanum ∨ c = '_') ∧ (∀ c ∈ name.toList.head?, ¬ c.isDigit) ∧
    TokenKind.ofKeyword? name = none

/-- Whether a text is a name can be told character by character. -/
lemma isName_of_all {name : String} (nonempty : name ≠ "")
    (all : name.toList.all fun c => c.isAlphanum || c == '_')
    (first : name.toList.head?.all fun c => !c.isDigit)
    (keyword : TokenKind.ofKeyword? name = none) : IsName name := by
  refine ⟨nonempty, fun c mem => ?_, fun c mem => ?_, keyword⟩
  · simpa using List.all_eq_true.1 all c mem
  · rw [Option.mem_def.1 mem] at first
    simpa using first

/-- The constant can be written: its text has no sign and no quote inside. -/
def Literal.IsWritable : Literal → Prop
  | .integer n => 0 ≤ n.toInt
  | .boolean _ => True
  | .string text => '"' ∉ text.toList

/-- That names are names, and constants can be written. -/
def Demand.writable : Demand where
  name := IsName
  literal := Literal.IsWritable
  sequence _ := True

namespace Token

/-- The tokens in parentheses. -/
def enclosed (w : List Token) : List Token := mark '(' :: (w ++ [mark ')'])

end Token

/-- The constant as a token. -/
def Literal.token : Literal → Token
  | .integer n => ⟨.int, Numeral.ofInt n.toInt, .nowhere⟩
  | .boolean true => .word "true"
  | .boolean false => .word "false"
  | .string text => ⟨.string, text, .nowhere⟩

/-- The kind of the operator's token. -/
def PrefixOp.kind : PrefixOp → TokenKind
  | .negate => .minus
  | .not => .bang

/-- The kind of the operator's token. -/
def InfixOp.kind : InfixOp → TokenKind
  | .add => .plus
  | .sub => .minus
  | .mul => .star
  | .div => .slash
  | .lt => .less
  | .gt => .greater
  | .eq => .equalEqual
  | .ne => .bangEqual

/-- The operator as a token. -/
def PrefixOp.token (op : PrefixOp) : Token := ⟨op.kind, op.text, .nowhere⟩

/-- The operator as a token. -/
def InfixOp.token (op : InfixOp) : Token := ⟨op.kind, op.text, .nowhere⟩

/-- The parameters of a function with commas between them. -/
def Identifier.paramTokens : List Identifier → List Token
  | [] => []
  | [x] => [.word x.name]
  | x :: y :: others => .word x.name :: .mark ',' :: paramTokens (y :: others)

mutual

/-- The expression spelled. A condition that is an operation brings its own parentheses. -/
def Expr.tokens : Expr → List Token
  | .literal value _ => [value.token]
  | .identifier x => [.word x.name]
  | .unary op operand _ => Token.enclosed (op.token :: operand.tokens)
  | .binary op left right _ => Token.enclosed (left.tokens ++ op.token :: right.tokens)
  | .conditional condition consequence alternative _ =>
    let head := if condition.isOperation then condition.tokens else Token.enclosed condition.tokens
    match alternative with
    | none => .word "if" :: (head ++ consequence.tokens)
    | some block => .word "if" :: (head ++ (consequence.tokens ++ .word "else" :: block.tokens))
  | .function params body _ =>
    .word "fn" :: (Token.enclosed (Identifier.paramTokens params) ++ body.tokens)
  | .call callee args _ => callee.tokens ++ Token.enclosed (Expr.argTokens args)

/-- Arguments with commas between them. -/
def Expr.argTokens : List Expr → List Token
  | [] => []
  | first :: others => first.tokens ++ Expr.moreArgTokens others

/-- The arguments after the first one. -/
def Expr.moreArgTokens : List Expr → List Token
  | [] => []
  | next :: others => .mark ',' :: (next.tokens ++ Expr.moreArgTokens others)

/-- The statement spelled; an expression has no semicolon after it. -/
def Stmt.tokens : Stmt → List Token
  | .letStmt x value _ =>
    .word "let" :: .word x.name :: .mark '=' :: (value.tokens ++ [.mark ';'])
  | .returnStmt value _ => .word "return" :: (value.tokens ++ [.mark ';'])
  | .exprStmt value _ => value.tokens

/-- The block spelled. -/
def Block.tokens : Block → List Token
  | ⟨statements, _⟩ => .mark '\x7b' :: (Stmt.bodyTokens statements ++ [.mark '\x7d'])

/-- The statements of a block or of a program, one after another. -/
def Stmt.bodyTokens : List Stmt → List Token
  | [] => []
  | s :: others => s.tokens ++ Stmt.bodyTokens others

end

/-- The program spelled. -/
def Program.tokens (p : Program) : List Token := Stmt.bodyTokens p.statements

open Cursor Text Token

section Leaves

variable {rest : List Char}

/-- A word before a character that does not continue it. -/
lemma scan_text {text : String} {c : Char} {cs : List Char} (eq : text.toList = c :: cs)
    (start : startsWord c) (more : cs.all continuesWord) (stops : Stops continuesWord rest) :
    scan (text.toList ++ rest) = word text :: scan rest := by
  rw [eq, List.cons_append, scan_word start (List.all_eq_true.1 more) stops, ← eq,
    String.ofList_toList]

/-- A name is a character that begins a word and further ones that continue it. -/
lemma IsName.eq_cons {name : String} (h : IsName name) :
    ∃ c cs, name.toList = c :: cs ∧ startsWord c ∧ ∀ c ∈ cs, continuesWord c := by
  obtain ⟨nonempty, all, first, _⟩ := h
  cases eq : name.toList with
  | nil => exact absurd (String.toList_eq_nil_iff.1 eq) nonempty
  | cons c cs =>
    rw [eq] at all first
    refine ⟨c, cs, rfl, ?_, ?_⟩
    · have digit := first c rfl
      have word := all c (List.mem_cons_self)
      simp only [Char.isAlphanum, Bool.or_eq_true, digit] at word
      simpa [startsWord] using word
    · intro c mem
      simpa [continuesWord] using all c (List.mem_cons_of_mem _ mem)

/-- A name scans as its word if something ends it. -/
lemma scan_name {name : String} (h : IsName name) (stops : Stops continuesWord rest) :
    scan (name.toList ++ rest) = word name :: scan rest := by
  obtain ⟨c, cs, eq, start, more⟩ := h.eq_cons
  exact scan_text eq start (List.all_eq_true.2 more) stops

/-- A natural number, as a numeral, before a character that does not continue it. -/
lemma scan_numeral (n : Nat) (stops : Stops continuesWord rest) :
    scan ((Numeral.ofNat n).toList ++ rest) = ⟨.int, Numeral.ofNat n, .nowhere⟩ :: scan rest := by
  obtain ⟨c, cs, eq, digit, more⟩ := Numeral.ofNat_eq_cons n
  have stops' : Stops Char.isDigit rest := fun c first => Bool.eq_false_iff.2 fun digit => by
    cases (continuesWord_of_isDigit digit).symm.trans (stops c first)
  rw [eq, List.cons_append, scan_digits digit more stops', ← eq, String.ofList_toList]

/-- A constant scans as its token if something ends it. -/
lemma Literal.scan_render {l : Literal} (h : l.IsWritable) (stops : Stops continuesWord rest) :
    scan (l.render.toList ++ rest) = l.token :: scan rest := by
  cases l with
  | integer n =>
    obtain ⟨k, eq⟩ := Int.eq_ofNat_of_zero_le h
    simp only [render, token, eq]
    exact scan_numeral k stops
  | boolean b =>
    cases b with
    | true => exact scan_text rfl rfl (by decide) stops
    | false => exact scan_text rfl rfl (by decide) stops
  | string text =>
    have quoted : (Literal.render (.string text)).toList ++ rest =
        '"' :: (text.toList ++ '"' :: rest) := by
      simp [render]
    rw [quoted, scan_quoted h, String.ofList_toList, token]

/-- An operator before a blank. -/
lemma InfixOp.scan_text (op : InfixOp) :
    scan (op.text.toList ++ ' ' :: rest) = op.token :: scan rest := by
  have blank : scan (' ' :: rest) = scan rest := scan_space rfl
  cases op with
  | eq =>
    show scan ('=' :: '=' :: ' ' :: rest) = _
    rw [scan_of_lexeme (fun trivial => absurd trivial.mem (by decide)), ← blank]
    rfl
  | ne =>
    show scan ('!' :: '=' :: ' ' :: rest) = _
    rw [scan_of_lexeme (fun trivial => absurd trivial.mem (by decide)), ← blank]
    rfl
  | _ =>
    rw [← blank]
    exact scan_mark rfl (by simp) (by simp)

end Leaves

/-- Whether the expression is written with a parenthesis in front: an operation or a call of one. -/
def Expr.opensGroup : Expr → Bool
  | .unary .. | .binary .. => true
  | .call callee _ _ => callee.opensGroup
  | _ => false

/-- A name begins with a letter or an underscore. -/
lemma IsName.head {name : String} (h : IsName name) :
    ∃ c, name.toList.head? = some c ∧ continuesWord c := by
  obtain ⟨c, cs, eq, start, _⟩ := h.eq_cons
  exact ⟨c, by rw [eq, List.head?_cons], continuesWord_of_startsWord start⟩

/-- The text of a constant begins with a character of a word or a quotation mark. -/
lemma Literal.render_head {l : Literal} (h : l.IsWritable) :
    ∃ c, l.render.toList.head? = some c ∧ (continuesWord c ∨ c = '"') := by
  cases l with
  | integer n =>
    obtain ⟨k, eq⟩ := Int.eq_ofNat_of_zero_le h
    obtain ⟨c, cs, text, digit, _⟩ := Numeral.ofNat_eq_cons k
    refine ⟨c, ?_, .inl (continuesWord_of_isDigit digit)⟩
    rw [render, eq]
    exact congrArg List.head? text
  | boolean b =>
    cases b with
    | true => exact ⟨'t', rfl, .inl rfl⟩
    | false => exact ⟨'f', rfl, .inl rfl⟩
  | string text => exact ⟨'"', by simp [render], .inr rfl⟩

/-- What an expression begins with does not go on with an operator, and is a parenthesis only if the
expression could be read as the arguments of a call. -/
lemma Expr.render_head : ∀ {e : Expr}, e.Meets .writable →
    ∃ c, e.render.toList.head? = some c ∧ c ≠ '=' ∧ (c = '(' ↔ e.opensGroup)
  | .literal l _, h => by
    obtain ⟨c, first, word⟩ := Literal.render_head h
    refine ⟨c, first, ?_, iff_of_false ?_ Bool.false_ne_true⟩
    · rintro rfl
      simp [continuesWord] at word
    · rintro rfl
      simp [continuesWord] at word
  | .identifier x, h => by
    obtain ⟨c, first, word⟩ := IsName.head h
    refine ⟨c, first, ?_, iff_of_false ?_ Bool.false_ne_true⟩
    · rintro rfl
      cases word
    · rintro rfl
      cases word
  | .unary .., _ => ⟨'(', by simp [render], by decide, by simp [opensGroup]⟩
  | .binary .., _ => ⟨'(', by simp [render], by decide, by simp [opensGroup]⟩
  | .conditional condition _ alternative _, _ => by
    refine ⟨'i', ?_, by decide, by simp [opensGroup]⟩
    cases alternative <;> cases op : condition.isOperation <;> simp [render, op]
  | .function .., _ => ⟨'f', by simp [render], by decide, by simp [opensGroup]⟩
  | .call callee _ _, h => by
    obtain ⟨c, first, rest⟩ := Expr.render_head h.1
    exact ⟨c, by simp [render, first], rest⟩

section Text

variable {rest : List Char}

/-- Parameters scan as their tokens. -/
lemma Identifier.scan_renderParams : ∀ {params : List Identifier},
    (∀ x ∈ params, IsName x.name) → Stops continuesWord rest →
      scan ((renderParams params).toList ++ rest) = paramTokens params ++ scan rest
  | [], _, _ => rfl
  | [x], h, stops => by
    simpa [renderParams, paramTokens] using scan_name (h x List.mem_cons_self) stops
  | x :: y :: others, h, stops => by
    have text : (renderParams (x :: y :: others)).toList ++ rest =
        x.name.toList ++ ',' :: ' ' :: ((renderParams (y :: others)).toList ++ rest) := by
      simp [renderParams]
    rw [text, scan_name (h x List.mem_cons_self) (stops_cons.2 rfl),
      scan_mark rfl (by simp) (by simp), scan_space rfl,
      scan_renderParams (fun x mem => h x (List.mem_cons_of_mem _ mem)) stops]
    rfl

/-- The operator of an operation, between the parenthesis and the operand. -/
lemma PrefixOp.scan_text (op : PrefixOp) (apart : rest.head? ≠ some '=') :
    scan (op.text.toList ++ rest) = op.token :: scan rest := by
  cases op with
  | negate =>
    show scan ('-' :: rest) = _
    exact scan_mark rfl (by simp) (by simp)
  | not =>
    show scan ('!' :: rest) = _
    exact scan_mark rfl (fun _ => apart) (by simp)

/-- Further arguments begin with something that ends a word, or are none. -/
lemma Expr.stops_renderMoreArgs (es : List Expr) (stops : Stops continuesWord rest) :
    Stops continuesWord ((Expr.renderMoreArgs es).toList ++ rest) := by
  cases es with
  | nil => exact stops
  | cons e others =>
    simp only [Expr.renderMoreArgs, String.toList_append, List.append_assoc]
    exact stops_cons.2 rfl

/-- The statements of a body begin with something that ends a word, or are none. -/
lemma Stmt.stops_renderBody (ss : List Stmt) (stops : Stops continuesWord rest) :
    Stops continuesWord ((Stmt.renderBody ss).toList ++ rest) := by
  cases ss with
  | nil => exact stops
  | cons s others =>
    simp only [Stmt.renderBody, String.toList_append, List.append_assoc]
    exact stops_cons.2 rfl

end Text

mutual

/-- The text of an expression scans as the expression is spelled, before a character that does not
continue a word. -/
lemma Expr.scan_render : ∀ {e : Expr} {rest : List Char}, e.Meets .writable →
    Stops continuesWord rest → scan (e.render.toList ++ rest) = e.tokens ++ scan rest
  | .literal _ _, _, h, stops => Literal.scan_render h stops
  | .identifier _, _, h, stops => scan_name h stops
  | .unary op operand span, rest, h, _ => by
    -- What the operand begins with makes no pair with the operator in front of it.
    obtain ⟨c, first, apart, _⟩ := Expr.render_head (e := operand) h
    have text : (Expr.unary op operand span).render.toList ++ rest =
        '(' :: (op.text.toList ++ (operand.render.toList ++ ')' :: rest)) := by
      simp [Expr.render]
    rw [text, scan_mark rfl (by simp) (by simp), op.scan_text,
      Expr.scan_render (e := operand) h (stops_cons.2 rfl), scan_mark rfl (by simp) (by simp)]
    · simp [Expr.tokens, enclosed]
    · simp [first, apart]
  | .binary op left right span, rest, h, _ => by
    have text : (Expr.binary op left right span).render.toList ++ rest =
        '(' :: (left.render.toList ++ ' ' :: (op.text.toList ++
          ' ' :: (right.render.toList ++ ')' :: rest))) := by
      simp [Expr.render]
    rw [text, scan_mark rfl (by simp) (by simp), Expr.scan_render h.1 (stops_cons.2 rfl),
      scan_space rfl, op.scan_text, Expr.scan_render h.2 (stops_cons.2 rfl),
      scan_mark rfl (by simp) (by simp)]
    simp [Expr.tokens, enclosed]
  | .conditional condition consequence none span, rest, h, _ => by
    have text : (Expr.conditional condition consequence none span).render.toList ++ rest =
        "if".toList ++ ' ' :: ((if condition.isOperation then condition.render
          else "(" ++ condition.render ++ ")").toList ++ ' ' ::
            (consequence.render.toList ++ rest)) := by
      cases op : condition.isOperation <;> simp [Expr.render, op]
    rw [text, scan_text rfl rfl (by decide) (stops_cons.2 rfl), scan_space rfl,
      Expr.scan_condition h.1, scan_space rfl, Block.scan_render h.2]
    simp [Expr.tokens]
  | .conditional condition consequence (some alternative) span, rest, h, _ => by
    have text : (Expr.conditional condition consequence (some alternative) span).render.toList ++
        rest = "if".toList ++ ' ' :: ((if condition.isOperation then condition.render
          else "(" ++ condition.render ++ ")").toList ++ ' ' :: (consequence.render.toList ++
            ' ' :: ("else".toList ++ ' ' :: (alternative.render.toList ++ rest)))) := by
      cases op : condition.isOperation <;> simp [Expr.render, op]
    rw [text, scan_text rfl rfl (by decide) (stops_cons.2 rfl), scan_space rfl,
      Expr.scan_condition h.1, scan_space rfl, Block.scan_render h.2.1, scan_space rfl,
      scan_text rfl rfl (by decide) (stops_cons.2 rfl), scan_space rfl, Block.scan_render h.2.2]
    simp [Expr.tokens]
  | .function params body span, rest, h, stops => by
    have text : (Expr.function params body span).render.toList ++ rest =
        "fn".toList ++ '(' :: ((Identifier.renderParams params).toList ++ ')' :: ' ' ::
          (body.render.toList ++ rest)) := by
      simp [Expr.render]
    rw [text, scan_text rfl rfl (by decide) (stops_cons.2 rfl),
      scan_mark rfl (by simp) (by simp), Identifier.scan_renderParams h.1 (stops_cons.2 rfl),
      scan_mark rfl (by simp) (by simp), scan_space rfl, Block.scan_render h.2]
    simp [Expr.tokens, enclosed]
  | .call callee args span, rest, h, stops => by
    have text : (Expr.call callee args span).render.toList ++ rest =
        callee.render.toList ++ '(' :: ((Expr.renderArgs args).toList ++ ')' :: rest) := by
      simp [Expr.render]
    rw [text, Expr.scan_render h.1 (stops_cons.2 rfl), scan_mark rfl (by simp) (by simp),
      Expr.scan_renderArgs h.2 (stops_cons.2 rfl), scan_mark rfl (by simp) (by simp)]
    simp [Expr.tokens, enclosed]

/-- A condition has parentheses around it, if not its own. -/
lemma Expr.scan_condition : ∀ {e : Expr} {rest : List Char}, e.Meets .writable →
    scan ((if e.isOperation then e.render else "(" ++ e.render ++ ")").toList ++ ' ' :: rest) =
      (if e.isOperation then e.tokens else enclosed e.tokens) ++ scan (' ' :: rest)
  | e, rest, h => by
    cases e.isOperation with
    | true => exact Expr.scan_render h (stops_cons.2 rfl)
    | false =>
      have text : ("(" ++ e.render ++ ")").toList ++ ' ' :: rest =
          '(' :: (e.render.toList ++ ')' :: ' ' :: rest) := by
        simp
      simp only [Bool.false_eq_true, if_false]
      rw [text, scan_mark rfl (by simp) (by simp), Expr.scan_render h (stops_cons.2 rfl),
        scan_mark rfl (by simp) (by simp)]
      simp [enclosed]

/-- Arguments scan as their tokens. -/
lemma Expr.scan_renderArgs : ∀ {es : List Expr} {rest : List Char}, Expr.AllMeet .writable es →
    Stops continuesWord rest →
      scan ((Expr.renderArgs es).toList ++ rest) = Expr.argTokens es ++ scan rest
  | [], _, _, _ => rfl
  | first :: others, rest, h, stops => by
    have stops' := Expr.stops_renderMoreArgs others stops
    rw [Expr.renderArgs, String.toList_append, List.append_assoc, Expr.scan_render h.1 stops',
      Expr.scan_renderMoreArgs h.2 stops, Expr.argTokens, List.append_assoc]

/-- Further arguments scan as their tokens. -/
lemma Expr.scan_renderMoreArgs : ∀ {es : List Expr} {rest : List Char}, Expr.AllMeet .writable es →
    Stops continuesWord rest →
      scan ((Expr.renderMoreArgs es).toList ++ rest) = Expr.moreArgTokens es ++ scan rest
  | [], _, _, _ => rfl
  | next :: others, rest, h, stops => by
    have stops' := Expr.stops_renderMoreArgs others stops
    have text : (Expr.renderMoreArgs (next :: others)).toList ++ rest =
        ',' :: ' ' :: (next.render.toList ++ ((Expr.renderMoreArgs others).toList ++ rest)) := by
      simp [Expr.renderMoreArgs]
    rw [text, scan_mark rfl (by simp) (by simp), scan_space rfl, Expr.scan_render h.1 stops',
      Expr.scan_renderMoreArgs h.2 stops]
    simp [Expr.moreArgTokens]

/-- A statement scans as its tokens. -/
lemma Stmt.scan_render : ∀ {s : Stmt} {rest : List Char}, s.Meets .writable →
    Stops continuesWord rest → scan (s.render.toList ++ rest) = s.tokens ++ scan rest
  | .letStmt x value span, rest, h, _ => by
    have text : (Stmt.letStmt x value span).render.toList ++ rest =
        "let".toList ++ ' ' :: (x.name.toList ++ ' ' :: '=' :: ' ' ::
          (value.render.toList ++ ';' :: rest)) := by
      simp [Stmt.render]
    rw [text, scan_text rfl rfl (by decide) (stops_cons.2 rfl), scan_space rfl,
      scan_name h.1 (stops_cons.2 rfl), scan_space rfl, scan_mark rfl (by simp) (by simp),
      scan_space rfl, Expr.scan_render h.2 (stops_cons.2 rfl), scan_mark rfl (by simp) (by simp)]
    simp [Stmt.tokens]
  | .returnStmt value span, rest, h, _ => by
    have text : (Stmt.returnStmt value span).render.toList ++ rest =
        "return".toList ++ ' ' :: (value.render.toList ++ ';' :: rest) := by
      simp [Stmt.render]
    rw [text, scan_text rfl rfl (by decide) (stops_cons.2 rfl), scan_space rfl,
      Expr.scan_render (e := value) h (stops_cons.2 rfl), scan_mark rfl (by simp) (by simp)]
    simp [Stmt.tokens]
  | .exprStmt value _, _, h, stops => Expr.scan_render (e := value) h stops

/-- The statements of a body scan as their tokens. -/
lemma Stmt.scan_renderBody : ∀ {ss : List Stmt} {rest : List Char}, Stmt.AllMeet .writable ss →
    Stops continuesWord rest →
      scan ((Stmt.renderBody ss).toList ++ rest) = Stmt.bodyTokens ss ++ scan rest
  | [], _, _, _ => rfl
  | s :: others, rest, h, stops => by
    have stops' := Stmt.stops_renderBody others stops
    have text : (Stmt.renderBody (s :: others)).toList ++ rest =
        ' ' :: (s.render.toList ++ ((Stmt.renderBody others).toList ++ rest)) := by
      simp [Stmt.renderBody]
    rw [text, scan_space rfl, Stmt.scan_render h.1 stops', Stmt.scan_renderBody h.2 stops,
      Stmt.bodyTokens, List.append_assoc]

/-- A block scans as its tokens. -/
lemma Block.scan_render : ∀ {b : Block} {rest : List Char}, b.Meets .writable →
    scan (b.render.toList ++ rest) = b.tokens ++ scan rest
  | ⟨statements, span⟩, rest, h => by
    have text : (Block.mk statements span).render.toList ++ rest =
        '\x7b' :: ((Stmt.renderBody statements).toList ++ ' ' :: '\x7d' :: rest) := by
      simp [Block.render]
    rw [text, scan_mark rfl (by simp) (by simp), Stmt.scan_renderBody h.2 (stops_cons.2 rfl),
      scan_space rfl, scan_mark rfl (by simp) (by simp)]
    simp [Block.tokens]

end

/-- The text of a program scans as the program is spelled. -/
theorem Program.scan_render {p : Program} (h : p.Meets .writable) :
    scan p.render.toList = p.tokens := by
  obtain ⟨statements⟩ := p
  suffices ∀ ss : List Stmt, Stmt.AllMeet .writable ss →
      scan ("\n".intercalate (ss.map Stmt.render)).toList = Stmt.bodyTokens ss from this _ h.2
  intro ss h
  induction ss with
  | nil => exact scan_nil
  | cons s others ih =>
    cases others with
    | nil =>
      have whole := Stmt.scan_render h.1 stops_nil
      rw [List.append_nil, scan_nil] at whole
      simpa [Stmt.bodyTokens] using whole
    | cons s' others =>
      have text : ("\n".intercalate ((s :: s' :: others).map Stmt.render)).toList =
          s.render.toList ++
            '\n' :: ("\n".intercalate ((s' :: others).map Stmt.render)).toList := by
        simp
      rw [text, Stmt.scan_render h.1 (stops_cons.2 rfl), scan_space rfl, ih h.2]
      rfl

end Monkey
