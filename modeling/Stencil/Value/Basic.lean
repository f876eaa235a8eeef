import Stencil.Value.Number

set_option autoImplicit false

namespace Stencil

inductive Value where
  | null
  | bool (b : Bool)
  | number (n : Number)
  | string (s : String)
  | list (items : List Value)
  | object (fields : List (String × Value))

-- Named values in the order of their names, no name twice.
abbrev Fields := List (String × Value)

namespace Fields

def get? (fields : Fields) (name : String) : Option Value := fields.lookup name

def insert (name : String) (value : Value) : Fields → Fields
  | [] => [(name, value)]
  | (other, old) :: rest =>
      if name < other then (name, value) :: (other, old) :: rest
      else if name = other then (name, value) :: rest
      else (other, old) :: insert name value rest

def ofList (entries : List (String × Value)) : Fields :=
  entries.foldl (fun fields (name, value) => insert name value fields) []

def merge (fields extra : Fields) : Fields :=
  extra.foldl (fun all (name, value) => insert name value all) fields

def names (fields : Fields) : List String := fields.map Prod.fst

end Fields

namespace Value

instance : Inhabited Value := ⟨.null⟩

def ofNat (n : Nat) : Value := .number (.ofNat n)

mutual
def same : Value → Value → Bool
  | .null, .null => true
  | .bool a, .bool b => a == b
  | .number m, .number n => m.same n
  | .string s, .string t => s == t
  | .list items, .list others => sameItems items others
  | .object fields, .object others => sameFields fields others
  | _, _ => false

def sameItems : List Value → List Value → Bool
  | [], [] => true
  | a :: items, b :: others => a.same b && sameItems items others
  | _, _ => false

def sameFields : List (String × Value) → List (String × Value) → Bool
  | [], [] => true
  | (name, a) :: fields, (other, b) :: others => name == other && a.same b && sameFields fields others
  | _, _ => false
end

instance : BEq Value := ⟨same⟩

inductive Kind where
  | null | bool | number | string | list | object
deriving DecidableEq, Repr

def Kind.name : Kind → String
  | .null => "null"
  | .bool => "bool"
  | .number => "number"
  | .string => "string"
  | .list => "list"
  | .object => "object"

def kind : Value → Kind
  | .null => .null
  | .bool _ => .bool
  | .number _ => .number
  | .string _ => .string
  | .list _ => .list
  | .object _ => .object

def isNull (value : Value) : Bool := value.kind == .null

end Value

end Stencil
