import Stencil.Json.Tree
import Stencil.Text.Hex

set_option autoImplicit false

namespace Stencil.Json

def escapeChar (c : Char) : List Char :=
  if c = '"' then ['\\', '"']
  else if c = '\\' then ['\\', '\\']
  else if c = '\x08' then ['\\', 'b']
  else if c = '\x0c' then ['\\', 'f']
  else if c = '\n' then ['\\', 'n']
  else if c = '\r' then ['\\', 'r']
  else if c = '\t' then ['\\', 't']
  else if c.toNat < 0x20 then
    ['\\', 'u', '0', '0', Text.hexDigit (c.toNat / 16), Text.hexDigit (c.toNat % 16)]
  else [c]

def quote (text : String) : List Char := '"' :: text.toList.flatMap escapeChar ++ ['"']

mutual
def Tree.compact : Tree → List Char
  | .null => ['n', 'u', 'l', 'l']
  | .bool true => ['t', 'r', 'u', 'e']
  | .bool false => ['f', 'a', 'l', 's', 'e']
  | .number n => n.text
  | .string s => quote s
  | .array items => '[' :: compactItems items ++ [']']
  | .object members => '\x7b' :: compactMembers members ++ ['\x7d']
  | .unreadable => []

def compactItems : List Tree → List Char
  | [] => []
  | [item] => item.compact
  | item :: rest => item.compact ++ ',' :: compactItems rest

def compactMembers : List (String × Tree) → List Char
  | [] => []
  | [(name, member)] => quote name ++ ':' :: member.compact
  | (name, member) :: rest => quote name ++ ':' :: member.compact ++ ',' :: compactMembers rest
end

def newLine (level : Nat) : List Char := '\n' :: List.replicate (2 * level) ' '

mutual
def Tree.indented (level : Nat) : Tree → List Char
  | .array [] => ['[', ']']
  | .array (item :: rest) =>
      '[' :: newLine (level + 1) ++ item.indented (level + 1) ++ indentedItems (level + 1) rest
        ++ newLine level ++ [']']
  | .object [] => ['\x7b', '\x7d']
  | .object ((name, member) :: rest) =>
      '\x7b' :: newLine (level + 1) ++ quote name ++ [':', ' '] ++ member.indented (level + 1)
        ++ indentedMembers (level + 1) rest ++ newLine level ++ ['\x7d']
  | other => other.compact

def indentedItems (level : Nat) : List Tree → List Char
  | [] => []
  | item :: rest => ',' :: newLine level ++ item.indented level ++ indentedItems level rest

def indentedMembers (level : Nat) : List (String × Tree) → List Char
  | [] => []
  | (name, member) :: rest =>
      ',' :: newLine level ++ quote name ++ [':', ' '] ++ member.indented level
        ++ indentedMembers level rest
end

def Tree.text (tree : Tree) : String := String.ofList tree.compact

def Tree.pretty (tree : Tree) : String := String.ofList (tree.indented 0)

end Stencil.Json

namespace Stencil.Value

def json (value : Value) : String := (Json.Tree.ofValue value).text

end Stencil.Value
