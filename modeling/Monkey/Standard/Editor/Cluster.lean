import Monkey.Standard.Editor.Ranges

/-!
# Clusters

What a reader takes for one character may be several: a letter with its accents, the consonants of a
conjunct, a picture put together from others, a flag. Splits a text into such clusters, as the rules
of the Unicode standard for extended grapheme clusters say.
-/

namespace Monkey.Text

/-- What a character is to the clusters around it. -/
inductive BreakClass where
  /-- Never in a cluster with others, but for a line break of two characters. -/
  | control
  | prepend
  | extend
  | spacing
  /-- Extends the character before it, and joins pictures. -/
  | joiner
  | pictograph
  /-- One of the letters of which two make a flag. -/
  | regional
  /-- A consonant that can be part of a conjunct. -/
  | consonant
  /-- The parts of a Korean syllable, from its beginning to its end. -/
  | leading
  | vowel
  | trailing
  /-- A Korean syllable without a trailing consonant. -/
  | openSyllable
  | closedSyllable
  | other
deriving DecidableEq, Repr

namespace Cluster

/-- The vowels of Korean, and those of other scripts that stand in their class. -/
def vowelRanges : List (Nat × Nat) :=
  [(0x1160, 0x11A7), (0xD7B0, 0xD7C6), (0x16D63, 0x16D63), (0x16D67, 0x16D6A)]

/-- The class of a character beyond ASCII. -/
def classBeyond (n : Nat) : BreakClass :=
  if 0xAC00 ≤ n ∧ n ≤ 0xD7A3 then
    if (n - 0xAC00) % 28 = 0 then .openSyllable else .closedSyllable
  else if n = 0x200D then .joiner
  else if isAmong [(0x1F1E6, 0x1F1FF)] n then .regional
  else if isAmong [(0x1100, 0x115F), (0xA960, 0xA97C)] n then .leading
  else if isAmong vowelRanges n then .vowel
  else if isAmong [(0x11A8, 0x11FF), (0xD7CB, 0xD7FB)] n then .trailing
  else if isAmong controlRanges n then .control
  else if isAmong prependRanges n then .prepend
  else if isAmong pictographRanges n then .pictograph
  else if isAmong consonantRanges n then .consonant
  else if isAmong spacingRanges n then .spacing
  else if isAmong extendRanges n then .extend
  else .other

/-- The class of a character. -/
def classOf (c : Char) : BreakClass :=
  if c.toNat < 0x20 ∨ c.toNat = 0x7F then .control
  else if c.toNat < 0x80 then .other
  else classBeyond c.toNat

/-- Whether a character links two consonants to a conjunct. -/
def isLinker (c : Char) : Bool := isAmong linkerRanges c.toNat

/-- Whether a character can stand between the consonants of a conjunct. -/
def isWithinConjunct (c : Char) : Bool :=
  classOf c = .joiner || (classOf c = .extend && c != '\u200c')

/-- Whether a text, given backwards, ends in a consonant and what links it to the next one. -/
def endsLinked (before : List Char) : Bool :=
  (before.takeWhile isWithinConjunct).any isLinker
    && (before.dropWhile isWithinConjunct).head?.any (classOf · = .consonant)

/-- Whether a text, given backwards, ends in a picture with what extends it. -/
def endsInPicture (before : List Char) : Bool :=
  (before.dropWhile (classOf · = .extend)).head?.any (classOf · = .pictograph)

/-- Whether a cluster ends between two characters, of which the first comes after a text that is
given backwards. -/
def isBoundary (before : List Char) (c d : Char) : Bool :=
  match classOf c, classOf d with
  | .control, _ => !(c == '\r' && d == '\n')
  | _, .control => true
  | .leading, .leading | .leading, .vowel => false
  | .leading, .openSyllable | .leading, .closedSyllable => false
  | .vowel, .vowel | .vowel, .trailing => false
  | .openSyllable, .vowel | .openSyllable, .trailing => false
  | .trailing, .trailing | .closedSyllable, .trailing => false
  | _, .extend | _, .joiner | _, .spacing | .prepend, _ => false
  | _, .consonant => !endsLinked (c :: before)
  | .joiner, .pictograph => !endsInPicture before
  | .regional, .regional => (before.takeWhile (classOf · = .regional)).length % 2 = 1
  | _, _ => true

end Cluster

/-- The clusters of what follows a text that is given backwards. -/
def clustersAfter (before : List Char) : List Char → List (List Char)
  | [] => []
  | [c] => [[c]]
  | c :: d :: cs =>
    match Cluster.isBoundary before c d, clustersAfter (c :: before) (d :: cs) with
    | false, cluster :: others => (c :: cluster) :: others
    | _, others => [c] :: others

/-- The clusters of a text. -/
def clusters (cs : List Char) : List (List Char) := clustersAfter [] cs

example : clusters "ab".toList = ["a".toList, "b".toList] := by decide +kernel

example : clusters "\u0915\u094d\u0937\u093f".toList = ["\u0915\u094d\u0937\u093f".toList] := by
  decide +kernel

example : clusters "🇩🇪🇫🇷".toList = ["🇩🇪".toList, "🇫🇷".toList] := by decide +kernel

end Monkey.Text
