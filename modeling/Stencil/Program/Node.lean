import Stencil.Expr.Basic
import Stencil.Template.Directive

set_option autoImplicit false

namespace Stencil

inductive Node where
  | text (content : String)
  | comment (content : String)
  | echo (expression : Expr) (line : Nat)
  | conditional (branches : List (Expr × List Node)) (otherwise : Option (List Node)) (line : Nat)
  | each (header : EachHeader) (body : List Node) (line : Nat)
  | counted (header : ForHeader) (body : List Node) (line : Nat)
  | whilst (test : Expr) (body : List Node) (line : Nat)
  | extend (template : Expr) (line : Nat)
  | insert (template : Expr) (line : Nat)
  | yield (block : Expr) (default : Option Expr) (line : Nat)
  | openSection (block : Expr) (inline : Option Expr) (line : Nat)
  | closeSection (mode : EndMode) (line : Nat)

def currentFormat : String := "vellum-program/1"

structure Program where
  format : String
  template : String
  nodes : List Node

end Stencil
