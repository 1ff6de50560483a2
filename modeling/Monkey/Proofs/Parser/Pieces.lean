import Monkey.Syntax.Source
import Monkey.Proofs.Diagnostic.Location
import Monkey.Proofs.Parser.Totality
import Monkey.Proofs.Token.Coverage

/-!
# Pieces of a text

Each round of the loop over statements takes a piece of the text: the tokens of a statement, which
is added to the program, or those that are dropped in place of a statement that breaks off, and one
diagnostic reports it. The statement breaks off at a token of its piece, unless it does so for want
of tokens; so the places where statements break off come in the order of the text. Main statement:
`Reading.ofTokens_pieces`.
-/

open Monkey.Parser Monkey.Grammar

namespace Monkey

/-- A part of a text: the tokens of a statement, or those that are dropped in place of one, with the
fault, the place of the token it is found at, and that token. -/
inductive Piece where
  | read (tokens : List Token) (stmt : Stmt)
  | dropped (tokens : List Token) (fault : Fault) (place : Nat) (found : Token)

namespace Piece

/-- The tokens of a piece. -/
def tokens : Piece → List Token
  | read tokens _ => tokens
  | dropped tokens _ _ _ => tokens

/-- Those of its tokens that went into a statement. -/
def kept : Piece → List Token
  | read tokens _ => tokens
  | dropped _ _ _ _ => []

/-- The statement of a piece. -/
def stmt? : Piece → Option Stmt
  | read _ stmt => some stmt
  | dropped _ _ _ _ => none

/-- The place where the statement broke off. -/
def place? : Piece → Option Nat
  | read _ _ => none
  | dropped _ _ place _ => some place

/-- What is reported about a piece. -/
def diagnostic? : Piece → Option Diagnostic
  | read _ _ => none
  | dropped _ fault _ found => some (fault.diagnostic found)

/-- The segment that a piece is read as. -/
def segment : Piece → Except Diagnostic Stmt
  | read _ stmt => .ok stmt
  | dropped _ fault _ found => .error (fault.diagnostic found)

/-- What a piece is that begins at a place of a text with a marker at its end. The tokens of a
statement derive it. What is dropped goes past the token at which the statement broke off, unless
that is the marker; and the fault fits that token. -/
inductive IsAt (text : List Token) (start : Nat) : Piece → Prop where
  | read {tokens stmt} :
    tokens <+: text.drop start →
    tokens ≠ [] →
    DerivesStatements tokens [stmt] →
    IsAt text start (read tokens stmt)
  | dropped {tokens fault place found} :
    tokens <+: text.drop start →
    tokens ≠ [] →
    start ≤ place →
    place < start + tokens.length ∨ place = start + tokens.length ∧ place + 1 = text.length →
    text[place]? = some found →
    fault.Fits found →
    IsAt text start (dropped tokens fault place found)

/-- A walker that stands at the beginning of the piece takes it in one round of the loop over
statements. The statement breaks off at the place where it should, or the round gives it; nothing
else is reported than the diagnostic of the piece. -/
def IsRound (tokens : List Token) (fuel start : Nat) (piece : Piece) : Prop :=
  ∀ w : Walker, w.current = start →
    (∀ place, piece.place? = some place → ∃ w',
      Walk.statement tokens fuel w = some (.error .broken, w') ∧ w'.current = place) ∧
    ∃ w', Walk.segment tokens fuel w = some (.ok piece.stmt?, w') ∧
      w'.current = start + piece.tokens.length ∧
      w'.diagnostics = w.diagnostics ++ piece.diagnostic?.toList

/-- Pieces stand side by side, each as it should at the place where it begins. -/
def Placed (P : Nat → Piece → Prop) : Nat → List Piece → Prop
  | _, [] => True
  | start, piece :: pieces => P start piece ∧ Placed P (start + piece.tokens.length) pieces

section Placed

variable {P Q : Nat → Piece → Prop} {text : List Token} {start : Nat} {piece : Piece}
  {pieces : List Piece}

/-- Pieces may be known by less. -/
lemma Placed.mono (imp : ∀ start piece, P start piece → Q start piece) :
    ∀ {start pieces}, Placed P start pieces → Placed Q start pieces
  | _, [], _ => trivial
  | _, _ :: _, ⟨first, others⟩ => ⟨imp _ _ first, others.mono imp⟩

/-- A piece of a row stands as it should somewhere. -/
lemma Placed.of_mem (placed : Placed P start pieces) : ∀ piece ∈ pieces, ∃ i, P i piece := by
  induction pieces generalizing start with
  | nil => exact List.forall_mem_nil _
  | cons first pieces ih => exact List.forall_mem_cons.2 ⟨⟨start, placed.1⟩, ih placed.2⟩

/-- No piece is empty. -/
lemma IsAt.ne_nil (h : piece.IsAt text start) : piece.tokens ≠ [] := by
  cases h <;> assumption

/-- A statement breaks off at the beginning of its piece or behind it. -/
lemma IsAt.le {place : Nat} (h : piece.IsAt text start) (broken : piece.place? = some place) :
    start ≤ place := by
  cases h with
  | read => cases broken
  | dropped _ _ le =>
    cases broken
    exact le

/-- A statement breaks off inside its piece, or at the marker right behind. -/
lemma IsAt.lt_or {place : Nat} (h : piece.IsAt text start) (broken : piece.place? = some place) :
    place < start + piece.tokens.length ∨
      place = start + piece.tokens.length ∧ place + 1 = text.length := by
  cases h with
  | read => cases broken
  | dropped _ _ _ within =>
    cases broken
    exact within

/-- Where the tokens of some pieces all are in a text, the places where statements broke off come in
the order of the pieces. -/
lemma Placed.increasing (placed : Placed (fun start piece => piece.IsAt text start) start pieces)
    (within : start + (pieces.flatMap tokens).length < text.length) :
    (∀ place ∈ pieces.filterMap place?, start ≤ place) ∧
      (pieces.filterMap place?).Pairwise (· < ·) := by
  induction pieces generalizing start with
  | nil => exact ⟨nofun, .nil⟩
  | cons piece pieces ih =>
    obtain ⟨first, others⟩ := placed
    rw [List.flatMap_cons, List.length_append, ← Nat.add_assoc] at within
    obtain ⟨behind, increasing⟩ := ih others within
    cases broken : piece.place? with
    | none =>
      rw [List.filterMap_cons_none broken]
      exact ⟨fun place mem => Nat.le_trans (Nat.le_add_right _ _) (behind place mem), increasing⟩
    | some place =>
      rw [List.filterMap_cons_some broken]
      refine ⟨List.forall_mem_cons.2 ⟨first.le broken, fun place mem =>
        Nat.le_trans (Nat.le_add_right _ _) (behind place mem)⟩, .cons (fun place' mem => ?_)
        increasing⟩
      rcases first.lt_or broken with lt | ⟨here, last⟩
      · exact Nat.lt_of_lt_of_le lt (behind place' mem)
      · -- The statement broke off at the marker, and there are no tokens for another piece.
        cases pieces with
        | nil => cases mem
        | cons next pieces =>
          have some := List.length_pos_iff.2 others.1.ne_nil
          rw [List.flatMap_cons, List.length_append] at within
          omega

/-- No more tokens are kept than there are. -/
lemma length_kept_le (pieces : List Piece) :
    (pieces.flatMap kept).length ≤ (pieces.flatMap tokens).length := by
  induction pieces with
  | nil => exact Nat.le_refl _
  | cons piece pieces ih =>
    rw [List.flatMap_cons, List.flatMap_cons, List.length_append, List.length_append]
    refine Nat.add_le_add ?_ ih
    cases piece with
    | read => exact Nat.le_refl _
    | dropped => exact Nat.zero_le _

/-- Nothing is reported exactly if all tokens went into statements. -/
lemma Placed.unreported_iff
    (placed : Placed (fun start piece => piece.IsAt text start) start pieces) :
    pieces.filterMap diagnostic? = [] ↔ pieces.flatMap kept = pieces.flatMap tokens := by
  induction pieces generalizing start with
  | nil => exact iff_of_true rfl rfl
  | cons piece pieces ih =>
    obtain ⟨first, others⟩ := placed
    rw [List.flatMap_cons, List.flatMap_cons]
    cases piece with
    | read tokens stmt =>
      show pieces.filterMap diagnostic? = [] ↔ tokens ++ _ = tokens ++ _
      rw [List.append_cancel_left_eq]
      exact ih others
    | dropped tokens fault place found =>
      refine iff_of_false (List.cons_ne_nil _ _) fun same => ?_
      have fewer := length_kept_le pieces
      have some : 0 < tokens.length := List.length_pos_iff.2 first.ne_nil
      have length := congrArg List.length same
      rw [List.length_append, List.length_append] at length
      simp only [kept, Piece.tokens, List.length_nil] at length
      omega

end Placed

section Rounds

variable {k : Track} {w w' : Walker} {v u ts rest : List Token} {s : Stmt} {fault : Fault}
  {start fuel : Nat}

/-- The tokens that a statement is read from derive it, with the semicolon that may end it. -/
lemma derives_of_reads (read : Reads (statement ts) s rest) :
    ∃ v, ts = v ++ rest ∧ DerivesStatements v [s] := by
  obtain ⟨v, s', r, whole, derives, apart, ends⟩ := statement_sound (fun us _ => sound us) read
  rcases ends with ⟨semicolon, rfl, kind, rfl⟩ | ⟨-, rfl, rfl⟩
  · exact ⟨v ++ [semicolon], by simpa using whole, .ended derives kind .none⟩
  · exact ⟨v ++ [], by simpa using whole, .bare derives next_nil .none⟩

/-- The tokens that are left tell where the walker stands. -/
lemma current_eq (h : k.At w (v ++ rest)) (h' : k.At w' rest) :
    w'.current = w.current + v.length := by
  have length := congrArg List.length h.2
  have length' := congrArg List.length h'.2
  have within := h.1
  have within' := h'.1
  simp only [List.length_drop, List.length_append] at length length'
  omega

/-- What is before the end is a part of the text with the marker. -/
lemma prefix_text (here : k.before.drop start = v ++ rest) (le : start ≤ k.before.length) :
    v <+: (k.before ++ [k.stop]).drop start := by
  rw [List.drop_append_of_le_length le, here, List.append_assoc]
  exact List.prefix_append _ _

/-- Fuel for all tokens is fuel for those that are left. -/
lemma fuelled (here : k.before.drop start = ts) (enough : 8 * (k.before.length + 1) ≤ fuel) :
    8 * ts.length + 3 ≤ fuel := by
  rw [← here, List.length_drop]
  omega

/-- What is read as a statement is a piece. -/
lemma read_isAt (le : start ≤ k.before.length) (here : k.before.drop start = v ++ rest)
    (derives : DerivesStatements v [s]) (run : Reads (statement (v ++ rest)) s rest) :
    (read v s).IsAt (k.before ++ [k.stop]) start := by
  refine .read (prefix_text here le) ?_ derives
  rintro rfl
  exact Nat.lt_irrefl _ run.shorter

/-- A statement that is read is a round of the loop. -/
lemma read_isRound (le : start ≤ k.before.length) (here : k.before.drop start = v ++ rest)
    (run : Reads (statement (v ++ rest)) s rest) (enough : 8 * (k.before.length + 1) ≤ fuel) :
    (read v s).IsRound k.tokens fuel start := by
  rintro w rfl
  have h : k.At w (v ++ rest) := ⟨le, here⟩
  obtain ⟨w', round, stands, said, -⟩ := h.segment_reads (fuelled here enough) run
  exact ⟨nofun, w', round, current_eq h stands, said⟩

section Dropped

variable (le : start ≤ k.before.length) (here : k.before.drop start = u ++ rest)
  (whole : u ++ rest = v ++ resume (u ++ rest) rest.length)

include le here whole

/-- What is dropped in place of a statement is a piece. -/
lemma dropped_isAt (some : u ++ rest ≠ []) (fits : fault.Fits (rest.headD k.stop)) :
    (dropped v fault (start + u.length) (rest.headD k.stop)).IsAt (k.before ++ [k.stop])
      start := by
  have length := congrArg List.length here
  have parts := congrArg List.length whole
  have shorter := resume_length_lt some rest.length
  rw [List.length_drop, List.length_append] at length
  rw [List.length_append, List.length_append] at parts
  rw [List.length_append] at shorter
  refine .dropped (prefix_text (here.trans whole) le) ?_ (Nat.le_add_right _ _) ?_ ?_ fits
  · rintro rfl
    rw [List.length_nil] at parts
    omega
  · cases rest with
    | nil =>
      simp only [List.length_nil, resume_nil] at parts length
      refine .inr ⟨by omega, ?_⟩
      rw [List.length_append, List.length_singleton]
      omega
    | cons t rest =>
      have skipped := skip_length_le (u.foldl braceDepth 0) t rest
      rw [resume_cons, List.length_cons] at parts
      exact .inl (by omega)
  · rw [← List.head?_drop, ← List.drop_drop, List.drop_append_of_le_length le, here,
      List.append_assoc, List.drop_left]
    cases rest <;> rfl

/-- A statement that breaks off is a round of the loop. -/
lemma dropped_isRound (fails : statement (u ++ rest) = fail fault rest)
    (enough : 8 * (k.before.length + 1) ≤ fuel) :
    (dropped v fault (start + u.length) (rest.headD k.stop)).IsRound k.tokens fuel start := by
  rintro w rfl
  have h : k.At w (u ++ rest) := ⟨le, here⟩
  have fuelled := fuelled here enough
  refine ⟨?_, ?_⟩
  · rintro place ⟨⟩
    have follows := h.statement (fun _ => k.followed _) fuelled
    rw [fails] at follows
    obtain ⟨w', broken, -, stands, -⟩ := Track.Follows.of_fail follows h
    exact ⟨w', broken, current_eq h stands⟩
  · obtain ⟨w', round, stands, said, -⟩ := h.segment_fails fuelled fails
    rw [whole] at h
    exact ⟨w', round, current_eq h stands, said⟩

end Dropped

/-- The tokens of a track from a place on fall into pieces. -/
structure Divides (k : Track) (start : Nat) (pieces : List Piece) : Prop where
  whole : pieces.flatMap tokens = k.before.drop start
  placed : Placed (fun start piece => piece.IsAt (k.before ++ [k.stop]) start ∧
    ∀ fuel ≥ 8 * (k.before.length + 1), piece.IsRound k.tokens fuel start) start pieces
  segments : segments k.stop (k.before.drop start) = pieces.map segment

/-- A piece in front of others that divide the rest divides the text with them. -/
lemma Divides.cons {piece : Piece} {pieces : List Piece}
    (others : Divides k (start + piece.tokens.length) pieces)
    (here : k.before.drop start = piece.tokens ++ rest)
    (isAt : piece.IsAt (k.before ++ [k.stop]) start)
    (isRound : ∀ fuel ≥ 8 * (k.before.length + 1), piece.IsRound k.tokens fuel start)
    (first : Parser.segments k.stop (piece.tokens ++ rest) =
      piece.segment :: Parser.segments k.stop rest) : Divides k start (piece :: pieces) := by
  have left : k.before.drop (start + piece.tokens.length) = rest := by
    rw [← List.drop_drop, here, List.drop_left]
  refine ⟨?_, ⟨⟨isAt, isRound⟩, others.placed⟩, ?_⟩
  · rw [List.flatMap_cons, others.whole, left, here]
  · rw [here, first, ← left, others.segments, List.map_cons]

/-- Wherever a statement may begin, the tokens before the marker fall into pieces. -/
lemma exists_divides (k : Track) (start : Nat) (le : start ≤ k.before.length) :
    ∃ pieces, Divides k start pieces := by
  -- The pieces behind the first one begin at a place further on.
  induction n : k.before.length - start using Nat.strongRecOn generalizing start with
  | ind n ih =>
    subst n
    have onward : ∀ {v rest : List Token}, k.before.drop start = v ++ rest → v ≠ [] →
        ∃ pieces, Divides k (start + v.length) pieces := by
      intro v rest here some
      have length := congrArg List.length here
      have pos := List.length_pos_iff.2 some
      rw [List.length_drop, List.length_append] at length
      exact ih _ (by omega) _ (by omega) rfl
    have stands : k.At ⟨⟨start, start⟩, [], []⟩ (k.before.drop start) := ⟨le, rfl⟩
    by_cases none : k.before.drop start = []
    · exact ⟨[], none.symm, trivial, by rw [none, segments_nil]; rfl⟩
    rcases stands.statement_cases with ⟨s, rest, read⟩ | ⟨u, rest, fault, here, fails, fits⟩
    · obtain ⟨v, here, derives⟩ := derives_of_reads read
      rw [here] at read
      have isAt := read_isAt le here derives read
      obtain ⟨pieces, others⟩ := onward here isAt.ne_nil
      exact ⟨.read v s :: pieces, others.cons here isAt (fun _ => read_isRound le here read)
        (segments_of_reads read)⟩
    · rw [here] at none fails
      have shorter := resume_length_lt none rest.length
      obtain ⟨w', -, stands', -⟩ :=
        Track.At.segment_fails (Nat.le_refl (8 * (u ++ rest).length + 3)) (here ▸ stands) fails
      -- What is left after skipping is behind what is dropped.
      obtain ⟨v, whole⟩ : resume (u ++ rest) rest.length <:+ u ++ rest :=
        List.suffix_of_suffix_length_le (stands'.2 ▸ List.drop_suffix _ _)
          (here ▸ List.drop_suffix _ _) (Nat.le_of_lt shorter)
      have isAt := dropped_isAt le here whole.symm none fits
      obtain ⟨pieces, others⟩ := onward (here.trans whole.symm) isAt.ne_nil
      refine ⟨.dropped v fault (start + u.length) (rest.headD k.stop) :: pieces, others.cons
        (here.trans whole.symm) isAt (fun _ => dropped_isRound le here whole.symm fails) ?_⟩
      rw [tokens, whole]
      exact segments_of_fails k.stop none fails

/-- What is read from pieces are their statements, and what is reported their diagnostics. -/
lemma ofSegments_map (pieces : List Piece) :
    (Reading.ofSegments (pieces.map segment)).program.statements = pieces.filterMap stmt? ∧
      (Reading.ofSegments (pieces.map segment)).diagnostics = pieces.filterMap diagnostic? := by
  induction pieces with
  | nil => exact ⟨rfl, rfl⟩
  | cons piece pieces ih =>
    cases piece with
    | read tokens stmt => exact ⟨congrArg (stmt :: ·) ih.1, ih.2⟩
    | dropped tokens fault place found =>
      exact ⟨ih.1, congrArg (fault.diagnostic found :: ·) ih.2⟩

end Rounds

/-- What a piece reports is the diagnostic of a fault at a token of the text. -/
lemma IsAt.reported {text : List Token} {start : Nat} {piece : Piece} {d : Diagnostic}
    (h : piece.IsAt text start) (said : piece.diagnostic? = some d) :
    ∃ place found, ∃ fault : Fault, piece.place? = some place ∧ text[place]? = some found ∧
      d = fault.diagnostic found := by
  cases h with
  | read => cases said
  | dropped _ _ _ _ here =>
    cases said
    exact ⟨_, _, _, rfl, here, rfl⟩

/-- What holds of tokens in the order of the text holds of the diagnostics of pieces. -/
lemma pairwise_diagnostics {text : List Token} {start : Nat} {pieces : List Piece}
    {R : Token → Token → Prop} {S : Diagnostic → Diagnostic → Prop}
    (placed : Placed (fun start piece => piece.IsAt text start) start pieces)
    (increasing : (pieces.filterMap place?).Pairwise (· < ·)) (ordered : text.Pairwise R)
    (imp : ∀ t ∈ text, ∀ t' ∈ text, R t t' →
      ∀ f f' : Fault, S (f.diagnostic t) (f'.diagnostic t')) :
    (pieces.filterMap diagnostic?).Pairwise S := by
  rw [List.pairwise_filterMap] at increasing ⊢
  refine increasing.imp_of_mem fun mem mem' lt d said d' said' => ?_
  obtain ⟨_, isAt⟩ := placed.of_mem _ mem
  obtain ⟨_, isAt'⟩ := placed.of_mem _ mem'
  obtain ⟨place, found, fault, broken, here, rfl⟩ := isAt.reported said
  obtain ⟨place', found', fault', broken', here', rfl⟩ := isAt'.reported said'
  obtain ⟨bound, rfl⟩ := List.getElem?_eq_some_iff.1 here
  obtain ⟨bound', rfl⟩ := List.getElem?_eq_some_iff.1 here'
  exact imp _ (List.getElem_mem _) _ (List.getElem_mem _)
    (List.pairwise_iff_getElem.1 ordered _ _ _ _ (lt _ broken _ broken')) _ _

end Piece

namespace Reading

open Piece

/-- The tokens of a source begin one behind the other, and the marker at the end behind them all. -/
lemma ofSource_ordered (source : String) :
    Token.upToEof (Token.ofSource source) = Token.ofSource source ∧
      (Token.ofSource source).Pairwise (fun t t' => t.span.start < t'.span.start) ∧
      ∀ t ∈ Token.ofSource source, t.span.start ≤ source.length := by
  obtain ⟨ts, whole, inside, ordered⟩ := Token.ofSource_within source
  rw [whole]
  refine ⟨?_, ?_, ?_⟩
  · exact Track.upToEof_eq ⟨ts, .eof source.length, [], fun t mem => (inside t mem).1, rfl⟩ (by
      simp [Track.tokens, Token.marked, Token.eof])
  · refine List.pairwise_append.2 ⟨ordered.imp_of_mem fun mem _ le => ?_,
      List.pairwise_singleton _ _, fun t mem t' last => ?_⟩
    · exact Nat.lt_of_lt_of_le (inside _ mem).2.1 le
    · rw [List.mem_singleton.1 last]
      exact Nat.lt_of_lt_of_le (inside t mem).2.1 (inside t mem).2.2
  · intro t mem
    rcases List.mem_append.1 mem with mem | last
    · exact Nat.le_trans (Nat.le_of_lt (inside t mem).2.1) (inside t mem).2.2
    · rw [List.mem_singleton.1 last]
      exact Nat.le_refl _

/-- What reading gives for some tokens, piece by piece. -/
structure IsCut (ts : List Token) (pieces : List Piece) : Prop where
  /-- The pieces are made up of the tokens before the first marker of the end. -/
  tokens : pieces.flatMap Piece.tokens = (Token.untilEof ts).1
  /-- Each is a piece of the text, and a round of the loop over statements takes it. -/
  placed : Placed (fun start piece => piece.IsAt (Token.upToEof ts) start ∧
    ∀ fuel ≥ 8 * (Token.eofPlace ts + 1), piece.IsRound (Token.marked ts) fuel start) 0 pieces
  statements : (ofTokens ts).program.statements = pieces.filterMap Piece.stmt?
  diagnostics : (ofTokens ts).diagnostics = pieces.filterMap Piece.diagnostic?
  increasing : (pieces.filterMap Piece.place?).Pairwise (· < ·)
  /-- There is no diagnostic exactly if every token went into a statement. -/
  complete : (ofTokens ts).diagnostics = [] ↔ pieces.flatMap Piece.kept = (Token.untilEof ts).1

/-- Every text can be cut into pieces. -/
lemma exists_isCut (ts : List Token) : ∃ pieces, IsCut ts pieces := by
  obtain ⟨k, tokens, ends⟩ := Token.exists_track ts
  obtain ⟨pieces, whole, placed, segments⟩ := exists_divides k 0 (Nat.zero_le _)
  rw [List.drop_zero] at whole segments
  have isAt := placed.mono fun _ _ => And.left
  have read : ofTokens ts = .ofSegments (pieces.map segment) := by
    simp only [ofTokens, ends, segments]
  have before : (Token.untilEof ts).1 = pieces.flatMap Piece.tokens := by rw [ends, whole]
  have text : Token.upToEof ts = k.before ++ [k.stop] := k.upToEof_eq tokens
  refine ⟨pieces, before.symm, ?_, ?_, ?_, (isAt.increasing ?_).2, ?_⟩
  · rw [text, k.eofPlace_eq tokens, ← tokens]
    exact placed
  · rw [read, (ofSegments_map pieces).1]
  · rw [read, (ofSegments_map pieces).2]
  · rw [whole, List.length_append, List.length_singleton]
    omega
  · rw [read, (ofSegments_map pieces).2, before]
    exact isAt.unreported_iff

/-- The tokens before the first marker of the end fall into pieces, one for each round of the loop
over statements. A piece is a statement of the program, which derives from its tokens, or there is
one diagnostic for it, which stands at the token where the statement broke off. These tokens come in
the order of the text. So there is no diagnostic exactly if all tokens went into statements, and the
diagnostics of a source are in the order of their offsets, and of their lines and columns. -/
theorem ofTokens_pieces :
    (∀ ts : List Token, ∃ pieces : List Piece, IsCut ts pieces) ∧
      ∀ source : String, (ofSource source).diagnostics.Pairwise fun d d' =>
        d.span.start < d'.span.start ∧ d.Precedes d' := by
  refine ⟨exists_isCut, fun source => ?_⟩
  obtain ⟨pieces, cut⟩ := exists_isCut (Token.ofSource source)
  obtain ⟨marked, ordered, inside⟩ := ofSource_ordered source
  have placed := cut.placed.mono fun _ _ => And.left
  rw [marked] at placed
  show ((ofTokens (Token.ofSource source)).diagnostics.map (·.locate source)).Pairwise _
  rw [cut.diagnostics, List.pairwise_map]
  refine pairwise_diagnostics placed cut.increasing ordered
    fun t _ t' mem' lt f f' => ⟨lt, Diagnostic.locate_precedes lt (inside t' mem')⟩

end Reading

end Monkey
