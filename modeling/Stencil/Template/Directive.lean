set_option autoImplicit false

namespace Stencil

inductive Directive where
  | openIf | nextIf | otherwise | closeIf
  | openUnless | closeUnless
  | openFor | closeFor | openEach | closeEach | openWhile | closeWhile
  | extend | insert | yield
  | openSection | closeSection | showSection | appendSection | stopSection | overwriteSection
deriving DecidableEq, Repr

inductive ConditionalKind where
  | affirmed | negated
deriving DecidableEq, Repr

inductive LoopKind where
  | counted | each | whilst
deriving DecidableEq, Repr

inductive EndMode where
  | append | overwrite | show
deriving DecidableEq, Repr

inductive Role where
  | openConditional (kind : ConditionalKind)
  | nextBranch
  | lastBranch
  | closeConditional
  | openLoop (kind : LoopKind)
  | closeLoop (kind : LoopKind)
  | extend
  | insert
  | yield
  | openSection
  | closeSection (mode : EndMode)
deriving DecidableEq, Repr

namespace Directive

def all : List Directive :=
  [.openIf, .nextIf, .otherwise, .closeIf, .openUnless, .closeUnless, .openFor, .closeFor,
    .openEach, .closeEach, .openWhile, .closeWhile, .extend, .insert, .yield, .openSection,
    .closeSection, .showSection, .appendSection, .stopSection, .overwriteSection]

def name : Directive → String
  | .openIf => "if"
  | .nextIf => "elseif"
  | .otherwise => "else"
  | .closeIf => "endif"
  | .openUnless => "unless"
  | .closeUnless => "endunless"
  | .openFor => "for"
  | .closeFor => "endfor"
  | .openEach => "foreach"
  | .closeEach => "endforeach"
  | .openWhile => "while"
  | .closeWhile => "endwhile"
  | .extend => "extends"
  | .insert => "include"
  | .yield => "yield"
  | .openSection => "section"
  | .closeSection => "endsection"
  | .showSection => "show"
  | .appendSection => "append"
  | .stopSection => "stop"
  | .overwriteSection => "overwrite"

def ofName? (name : String) : Option Directive := all.find? fun d => d.name == name

def role : Directive → Role
  | .openIf => .openConditional .affirmed
  | .openUnless => .openConditional .negated
  | .nextIf => .nextBranch
  | .otherwise => .lastBranch
  | .closeIf => .closeConditional
  | .closeUnless => .closeConditional
  | .openFor => .openLoop .counted
  | .openEach => .openLoop .each
  | .openWhile => .openLoop .whilst
  | .closeFor => .closeLoop .counted
  | .closeEach => .closeLoop .each
  | .closeWhile => .closeLoop .whilst
  | .extend => .extend
  | .insert => .insert
  | .yield => .yield
  | .openSection => .openSection
  | .closeSection => .closeSection .append
  | .appendSection => .closeSection .append
  | .stopSection => .closeSection .append
  | .showSection => .closeSection .show
  | .overwriteSection => .closeSection .overwrite

def takesArguments (d : Directive) : Bool :=
  match d.role with
  | .openConditional _ => true
  | .nextBranch => true
  | .openLoop _ => true
  | .extend => true
  | .insert => true
  | .yield => true
  | .openSection => true
  | _ => false

end Directive

namespace ConditionalKind

def opener : ConditionalKind → Directive
  | .affirmed => .openIf
  | .negated => .openUnless

def closer : ConditionalKind → Directive
  | .affirmed => .closeIf
  | .negated => .closeUnless

end ConditionalKind

namespace LoopKind

def opener : LoopKind → Directive
  | .counted => .openFor
  | .each => .openEach
  | .whilst => .openWhile

def closer : LoopKind → Directive
  | .counted => .closeFor
  | .each => .closeEach
  | .whilst => .closeWhile

end LoopKind

end Stencil
