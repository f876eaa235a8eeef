import Stencil.Value.Basic

set_option autoImplicit false

namespace Stencil.Json

-- `unreadable` stands for a part that is well-formed but has no value: a number too large, a
-- text with half a surrogate pair, an object with such a name.
inductive Tree where
  | null
  | bool (b : Bool)
  | number (n : Number)
  | string (s : String)
  | array (items : List Tree)
  | object (members : List (String × Tree))
  | unreadable

mutual
def Tree.depth : Tree → Nat
  | .array items => depthOfItems items + 1
  | .object members => depthOfMembers members + 1
  | _ => 0

def depthOfItems : List Tree → Nat
  | [] => 0
  | item :: rest => max item.depth (depthOfItems rest)

def depthOfMembers : List (String × Tree) → Nat
  | [] => 0
  | (_, member) :: rest => max member.depth (depthOfMembers rest)
end

mutual
-- The value a tree stands for. Of members with one name the last counts.
def Tree.toValue? : Tree → Option Value
  | .null => some .null
  | .bool b => some (.bool b)
  | .number n => some (.number n)
  | .string s => some (.string s)
  | .array items => (itemValues? items).map .list
  | .object members => (memberValues? members).map fun entries => .object (Fields.ofList entries)
  | .unreadable => none

def itemValues? : List Tree → Option (List Value)
  | [] => some []
  | item :: rest =>
      match item.toValue?, itemValues? rest with
      | some value, some values => some (value :: values)
      | _, _ => none

def memberValues? : List (String × Tree) → Option (List (String × Value))
  | [] => some []
  | (name, member) :: rest =>
      match member.toValue?, memberValues? rest with
      | some value, some values => some ((name, value) :: values)
      | _, _ => none
end

mutual
def Tree.ofValue : Value → Tree
  | .null => .null
  | .bool b => .bool b
  | .number n => .number n
  | .string s => .string s
  | .list items => .array (ofValues items)
  | .object fields => .object (ofFields fields)

def ofValues : List Value → List Tree
  | [] => []
  | value :: rest => Tree.ofValue value :: ofValues rest

def ofFields : List (String × Value) → List (String × Tree)
  | [] => []
  | (name, value) :: rest => (name, Tree.ofValue value) :: ofFields rest
end

end Stencil.Json
