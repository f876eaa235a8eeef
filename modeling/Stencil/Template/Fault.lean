import Stencil.Expr.Token
import Stencil.Template.Directive

set_option autoImplicit false

namespace Stencil.Template

inductive Malformed where
  | unbalanced (directive : Directive)
  | needsArguments (directive : Directive)
  | takesNoArguments (directive : Directive)
  | wrongCount (directive : Directive) (expected found : Nat)
  | notOneOrTwo (directive : Directive)
  | branchOutsideIf
  | lastBranchOutsideConditional
  | nothingToClose (directive : Directive)
  | mismatch (found expected : Directive) (opened : Nat)
  | neverClosed (directive : Directive)
  | nestedTooDeeply (limit : Nat)
  | noOpenSection

def Malformed.message : Malformed → String
  | .unbalanced d => "unbalanced parentheses in @" ++ d.name ++ " arguments"
  | .needsArguments d => "@" ++ d.name ++ " requires arguments"
  | .takesNoArguments d => "@" ++ d.name ++ " does not take arguments"
  | .wrongCount d expected found =>
      "@" ++ d.name ++ " takes " ++ toString expected ++ " argument(s), found " ++ toString found
  | .notOneOrTwo d => "@" ++ d.name ++ " takes one or two arguments"
  | .branchOutsideIf => "@elseif without a matching @if"
  | .lastBranchOutsideConditional => "@else without a matching @if or @unless"
  | .nothingToClose d => "@" ++ d.name ++ " without a matching opening directive"
  | .mismatch found expected opened =>
      "@" ++ found.name ++ " found where @" ++ expected.name ++ " was expected (block opened on line "
        ++ toString opened ++ ")"
  | .neverClosed d => "@" ++ d.name ++ " is never closed"
  | .nestedTooDeeply limit => "blocks are nested more than " ++ toString limit ++ " levels deep"
  | .noOpenSection => "no open @section to close"

inductive Place where
  | echo (source : List Char)
  | directive (directive : Directive)

def Place.text : Place → String
  | .echo source => "in echo " ++ String.ofList source
  | .directive d => "in @" ++ d.name

inductive FaultKind where
  | malformed (what : Malformed)
  | expression (place : Place) (error : ParseError)

structure Fault where
  kind : FaultKind
  line : Nat

end Stencil.Template
