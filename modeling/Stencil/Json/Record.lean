import Stencil.Json.Tree

set_option autoImplicit false

namespace Stencil.Json

-- An optional field is null where an object does not name it.
structure Field where
  name : String
  optional : Bool
deriving DecidableEq, Repr

abbrev Part (tree : Tree) : Type := { part : Tree // sizeOf part < sizeOf tree }

theorem sizeOf_member {members : List (String × Tree)} {name : String} {part : Tree}
    (inside : (name, part) ∈ members) : sizeOf part < sizeOf (Tree.object members) := by
  have := List.sizeOf_lt_of_mem inside
  simp only [Prod.mk.sizeOf_spec, Tree.object.sizeOf_spec] at *
  omega

theorem sizeOf_item {items : List Tree} {part : Tree} (inside : part ∈ items) :
    sizeOf part < sizeOf (Tree.array items) := by
  have := List.sizeOf_lt_of_mem inside
  simp only [Tree.array.sizeOf_spec] at *
  omega

theorem sizeOf_null (members : List (String × Tree)) :
    sizeOf Tree.null < sizeOf (Tree.object members) := by
  cases members <;> simp only [Tree.null.sizeOf_spec, Tree.object.sizeOf_spec,
    List.nil.sizeOf_spec, List.cons.sizeOf_spec] <;> omega

def named (members : List (String × Tree)) (name : String) : List (Part (.object members)) :=
  members.attach.filterMap fun ⟨(other, part), inside⟩ =>
    if other = name then some ⟨part, sizeOf_member inside⟩ else none

def fieldOf? (members : List (String × Tree)) (field : Field) : Option (Part (.object members)) :=
  match named members field.name with
  | [] =>
      if field.optional then some ⟨.null, sizeOf_null members⟩ else none
  | [part] => some part
  | _ => none

def Tree.record? (fields : List Field) : (tree : Tree) → Option (List (Part tree))
  | .object members => fields.mapM (fieldOf? members)
  | .array items =>
      if items.length = fields.length then
        some (items.attach.map fun ⟨part, inside⟩ => ⟨part, sizeOf_item inside⟩)
      else none
  | _ => none

def Tree.record (fields : List Field) (parts : List Tree) : Tree :=
  .object ((fields.map Field.name).zip parts)

structure Variant (Form : Type) where
  tag : String
  forms : List Form
  name : Form → String
  fields : Form → List Field

namespace Variant

variable {Form : Type}

-- A form by its name, or where `numbered` says so by its place among the forms.
def form? (variant : Variant Form) (numbered : Bool) : Tree → Option Form
  | .string name => variant.forms.find? fun form => variant.name form == name
  | .number (.int (.ofNat n) _) => if numbered then variant.forms[n]? else none
  | _ => none

theorem sizeOf_array_tail (first : Tree) (rest : List Tree) :
    sizeOf (Tree.array rest) < sizeOf (Tree.array (first :: rest)) := by
  simp only [Tree.array.sizeOf_spec, List.cons.sizeOf_spec]
  omega

def read? (variant : Variant Form) (numbered : Bool) : (tree : Tree) → Option (Form × List (Part tree))
  | .object members =>
      match named members variant.tag with
      | [tag] => do
          let form ← variant.form? numbered tag
          return (form, ← Tree.record? (variant.fields form) (.object members))
      | _ => none
  | .array (tag :: rest) => do
      let form ← variant.form? numbered tag
      let parts ← Tree.record? (variant.fields form) (.array rest)
      return (form, parts.map fun part =>
        ⟨part.val, Nat.lt_trans part.property (sizeOf_array_tail tag rest)⟩)
  | _ => none

def write (variant : Variant Form) (form : Form) (parts : List Tree) : Tree :=
  .object ((variant.tag, .string (variant.name form))
    :: ((variant.fields form).map Field.name).zip parts)

end Variant

mutual
def Tree.isReadable : Tree → Bool
  | .array items => allReadable items
  | .object members => allReadableMembers members
  | .unreadable => false
  | _ => true

def allReadable : List Tree → Bool
  | [] => true
  | item :: rest => item.isReadable && allReadable rest

def allReadableMembers : List (String × Tree) → Bool
  | [] => true
  | (_, member) :: rest => member.isReadable && allReadableMembers rest
end

namespace Tree

def string? : Tree → Option String
  | .string s => some s
  | _ => none

def natural? : Tree → Option Nat
  | .number (.int (.ofNat n) _) => some n
  | _ => none

def isUnit : Tree → Bool
  | .null => true
  | .object members => members.isEmpty
  | _ => false

def choice? {Choice : Type} (choices : List Choice) (name : Choice → String) : Tree → Option Choice
  | .string s => choices.find? fun choice => name choice == s
  | .object [(s, contents)] =>
      if contents.isUnit then choices.find? fun choice => name choice == s else none
  | _ => none

def ofNat (n : Nat) : Tree := .number (.ofNat n)

end Tree

end Stencil.Json
