import Monkey.Json
import Monkey.Text.Numeral

/-!
# Parts of JSON values

Takes a JSON value apart: what a node holds under the names of its fields, the content of a variant,
the items of an array. Each part comes with the proof that it is smaller than the whole, so that
values can be read by recursion.
-/

namespace Monkey.Json

/-- A value inside `j`. -/
abbrev Inner (j : Json) := { v : Json // sizeOf v < sizeOf j }

/-- An item is smaller than the array. -/
theorem sizeOf_item_lt {items : List Json} {v : Json} (h : v ∈ items) :
    sizeOf v < sizeOf (Json.array items) := by
  have := List.sizeOf_lt_of_mem h
  simp only [Json.array.sizeOf_spec]
  omega

/-- A member is smaller than the object. -/
theorem sizeOf_member_lt {members : List (String × Json)} {m : String × Json} (h : m ∈ members) :
    sizeOf m.2 < sizeOf (Json.object members) := by
  have := List.sizeOf_lt_of_mem h
  obtain ⟨key, value⟩ := m
  simp only [Json.object.sizeOf_spec, Prod.mk.sizeOf_spec] at this ⊢
  omega

/-- The items of an array, known to be inside it. -/
def innerItems (items : List Json) : List (Inner (.array items)) :=
  items.attach.map fun ⟨v, h⟩ => ⟨v, sizeOf_item_lt h⟩

/-- The first member of an object under a key, known to be inside it. -/
def innerMember? (members : List (String × Json)) (key : String) :
    Option (Inner (.object members)) :=
  (members.attach.find? (·.1.1 == key)).map fun ⟨m, h⟩ => ⟨m.2, sizeOf_member_lt h⟩

/-- What a node holds under each of the given keys: the members of an object, none of them repeated;
or the items of an array, one for each key in their order, though the last ones may be left out. -/
def fields? (keys : List String) (j : Json) : Option (String → Option (Inner j)) :=
  match j with
  | .array items =>
    if items.length ≤ keys.length then some fun key => (innerItems items)[keys.idxOf key]? else none
  | .object members =>
    if keys.all fun key => members.countP (·.1 == key) ≤ 1 then some (innerMember? members)
    else none
  | _ => none

/-- The name of a variant with its content: an object with just one member. -/
def variant? (j : Json) : Option (String × Inner j) :=
  match j with
  | .object [(tag, content)] =>
    some (tag, ⟨content, sizeOf_member_lt (m := (tag, content)) (List.mem_singleton_self _)⟩)
  | _ => none

/-- Null and an empty object count as no content. -/
def isNoContent : Json → Bool
  | .null | .object [] => true
  | _ => false

/-- The name of a variant that has no content. -/
def unitVariant? : Json → Option String
  | .string tag => some tag
  | .object [(tag, content)] => if content.isNoContent then some tag else none
  | _ => none

/-- The items of an array. -/
def elements? (j : Json) : Option (List (Inner j)) :=
  match j with
  | .array items => some (innerItems items)
  | _ => none

/-- Whether the value is null. -/
def isNull : Json → Bool
  | .null => true
  | _ => false

/-- Reads a number in the range of an unsigned word of so many bits. -/
def word? (bits : Nat) : Json → Option Nat
  | .integer n => if 0 ≤ n ∧ n < Numeral.words bits then some n.toNat else none
  | _ => none

/-- Reads a signed number of 64 bits. -/
def int64? : Json → Option Int64
  | .integer n => Numeral.toInt64? n
  | _ => none

/-- Reads a truth value. -/
def bool? : Json → Option Bool
  | .bool b => some b
  | _ => none

/-- Reads a text. -/
def text? : Json → Option String
  | .string s => some s
  | _ => none

end Monkey.Json
