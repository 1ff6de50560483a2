/-!
# JSON values

The values of JSON. An object is a list of members, so that order and repetition are kept; a number
that is not a plain integer is kept as its text.
-/

namespace Monkey

/-- A JSON value. -/
inductive Json where
  | null
  | bool (value : Bool)
  | integer (value : Int)
  | decimal (text : String)
  | string (value : String)
  | array (items : List Json)
  | object (members : List (String × Json))

namespace Json

instance : Inhabited Json := ⟨.null⟩

/-- A whole number without sign. -/
def ofNat (n : Nat) : Json := .integer n

/-- An object with the single member that names a variant. -/
def tagged (tag : String) (content : Json) : Json := .object [(tag, content)]

/-- Whether the value is an object. -/
def isObject : Json → Bool
  | .object _ => true
  | _ => false

/-- The white space of JSON. -/
def isSpace (c : Char) : Bool := c == ' ' || c == '\t' || c == '\n' || c == '\r'

/-- The member of an object under a key, the first one if the key is repeated. -/
def field? (key : String) : Json → Option Json
  | .object members => (members.find? (·.1 == key)).map Prod.snd
  | _ => none

mutual

/-- How deep arrays and objects are nested in a value: a scalar has depth 0. -/
def depth : Json → Nat
  | .array items => 1 + depthItems items
  | .object members => 1 + depthMembers members
  | _ => 0

/-- The greatest depth among the items of an array. -/
def depthItems : List Json → Nat
  | [] => 0
  | item :: others => max item.depth (depthItems others)

/-- The greatest depth among the members of an object. -/
def depthMembers : List (String × Json) → Nat
  | [] => 0
  | (_, value) :: others => max value.depth (depthMembers others)

end

end Json

end Monkey
