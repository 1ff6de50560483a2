import Monkey.Standard.Editor.Cluster

/-!
# Backspaces

A backspace in a line takes away the cluster before it.
-/

namespace Monkey.Text

/-- The text without characters at its front that make up so many bytes. -/
def dropBytes : Nat → List Char → List Char
  | 0, cs => cs
  | _, [] => []
  | n + 1, c :: cs => dropBytes (n + 1 - c.utf8Size) cs

/-- A line while it is read. -/
structure TypedLine where
  /-- What has been read and not been taken away, backwards. -/
  reversed : List Char
  /-- How many bytes the next backspaces take away; the number is kept in one byte. -/
  sizes : List UInt8

namespace TypedLine

/-- The line at its beginning. -/
def empty : TypedLine := ⟨[], []⟩

/-- Reads a cluster. -/
def add (t : TypedLine) (cluster : List Char) : TypedLine :=
  if cluster = ['\x08'] then
    match t.sizes with
    | [] => t
    | size :: earlier => ⟨dropBytes size.toNat t.reversed, earlier⟩
  else ⟨cluster.reverse ++ t.reversed, UInt8.ofNat (String.ofList cluster).utf8ByteSize :: t.sizes⟩

/-- What a line says. -/
def text (t : TypedLine) : String := String.ofList t.reversed.reverse

end TypedLine

/-- The line after its backspaces have taken effect. -/
def applyBackspaces (line : String) : String :=
  ((clusters line.toList).foldl TypedLine.add .empty).text

example : applyBackspaces "1\x082" = "2" := by decide +kernel

end Monkey.Text
