/-!
# Paths

A path is a text of components between slashes. Joining and taking the parent are operations on the
text: they look at no file, and they keep the spelling of what they do not change. Main statement:
`parent?_length_lt`, a parent is shorter than its path, so that walking up ends.
-/

namespace Monkey

/-- A path, as it is spelled. -/
structure Path where
  text : String
deriving DecidableEq, Repr, Inhabited

namespace Path

/-- Whether the path starts at the root. -/
def isAbsolute (p : Path) : Bool := p.text.toList.head? == some '/'

/-- The path `q` as seen from `p`; an absolute path is seen the same from everywhere. -/
def join (p q : Path) : Path :=
  if q.isAbsolute || p.text.isEmpty then q
  else if p.text.toList.getLast? == some '/' then ⟨p.text ++ q.text⟩
  else ⟨p.text ++ "/" ++ q.text⟩

/-- What a path begins with before its components: the root, or the mark for the current
directory. Each is one character long. -/
def anchor : List Char → List Char
  | '/' :: _ => ['/']
  | ['.'] => ['.']
  | '.' :: '/' :: _ => ['.']
  | _ => []

/-- Drops what names nothing from the front of a reversed path without its anchor: slashes, and
components that are a lone dot. -/
def trimReversed : List Char → List Char
  | '/' :: cs => trimReversed cs
  | ['.'] => []
  | '.' :: '/' :: cs => trimReversed cs
  | cs => cs

/-- The path without its last component; `none` for the root and for the empty path. -/
def parent? (p : Path) : Option Path :=
  let cs := p.text.toList
  let start := anchor cs
  match trimReversed (cs.drop start.length).reverse with
  | [] => if start = ['.'] then some ⟨""⟩ else none
  | last =>
    let above := trimReversed (last.dropWhile (· != '/'))
    some ⟨String.ofList (start ++ above.reverse)⟩

/-- Trimming leaves no more text. -/
theorem trimReversed_length_le (cs : List Char) : (trimReversed cs).length ≤ cs.length := by
  fun_induction trimReversed cs with
  | case1 cs ih => exact Nat.le_succ_of_le ih
  | case2 => simp
  | case3 cs ih => exact Nat.le_succ_of_le (Nat.le_succ_of_le ih)
  | case4 => exact Nat.le_refl _

/-- What is left of a reversed path begins with a character of a component. -/
theorem trimReversed_ne_slash {cs rest : List Char} : trimReversed cs ≠ '/' :: rest := by
  fun_induction trimReversed cs with
  | case1 cs ih => exact ih
  | case2 => simp
  | case3 cs ih => exact ih
  | case4 cs h =>
    intro eq
    exact h rest eq

/-- The anchor of a path leaves no more text. -/
theorem anchor_length_le (cs : List Char) : (anchor cs).length ≤ cs.length := by
  unfold anchor
  split <;> simp

/-- A parent is shorter than the path it is the parent of. -/
theorem parent?_length_lt {p q : Path} (h : p.parent? = some q) :
    q.text.length < p.text.length := by
  have start := anchor_length_le p.text.toList
  have dropped := trimReversed_length_le (p.text.toList.drop (anchor p.text.toList).length).reverse
  simp only [List.length_reverse, List.length_drop] at dropped
  unfold parent? at h
  simp only at h
  split at h
  · split at h
    · rename_i dot
      cases h
      rw [dot, String.length_toList] at start
      exact start
    · cases h
  · rename_i last nonempty
    cases h
    generalize eq : trimReversed (p.text.toList.drop (anchor p.text.toList).length).reverse = last
      at *
    have above := trimReversed_length_le (last.dropWhile (· != '/'))
    have shorter : (last.dropWhile (· != '/')).length < last.length := by
      cases last with
      | nil => exact absurd rfl nonempty
      | cons c cs =>
        have : c ≠ '/' := fun same => trimReversed_ne_slash (same ▸ eq)
        simp only [List.dropWhile_cons, bne_iff_ne, ne_eq, this, not_false_eq_true, ↓reduceIte,
          List.length_cons]
        exact Nat.lt_succ_of_le (List.dropWhile_suffix _).length_le
    simp only [String.length_ofList, List.length_append, List.length_reverse]
    rw [← String.length_toList]
    omega

/-- The path and the paths above it, from the inside outwards. -/
def ancestors (p : Path) : List Path :=
  match h : p.parent? with
  | none => [p]
  | some q =>
    have := parent?_length_lt h
    p :: q.ancestors
termination_by p.text.length

end Path

end Monkey
