import Stencil.Expr.Code
import Stencil.Json.Printer
import Stencil.Json.Reader
import Stencil.Program.Node

set_option autoImplicit false

namespace Stencil

open Json (Tree Field Variant)

namespace EndMode

def all : List EndMode := [.append, .overwrite, .show]

def code : EndMode → String
  | .append => "append"
  | .overwrite => "overwrite"
  | .show => "show"

end EndMode

namespace Node

inductive Form where
  | text | comment | echo | conditional | each | counted | whilst | extend | insert | yield
  | openSection | closeSection
deriving DecidableEq, Repr

def Form.name : Form → String
  | .text => "text"
  | .comment => "comment"
  | .echo => "echo"
  | .conditional => "conditional"
  | .each => "for_each"
  | .counted => "for"
  | .whilst => "while"
  | .extend => "extends"
  | .insert => "include"
  | .yield => "yield"
  | .openSection => "section"
  | .closeSection => "end_section"

def Form.fields : Form → List Field
  | .text => [⟨"text", false⟩]
  | .comment => [⟨"text", false⟩]
  | .echo => [⟨"expr", false⟩, ⟨"line", false⟩]
  | .conditional => [⟨"branches", false⟩, ⟨"otherwise", true⟩, ⟨"line", false⟩]
  | .each => [⟨"header", false⟩, ⟨"body", false⟩, ⟨"line", false⟩]
  | .counted => [⟨"header", false⟩, ⟨"body", false⟩, ⟨"line", false⟩]
  | .whilst => [⟨"test", false⟩, ⟨"body", false⟩, ⟨"line", false⟩]
  | .extend => [⟨"template", false⟩, ⟨"line", false⟩]
  | .insert => [⟨"template", false⟩, ⟨"line", false⟩]
  | .yield => [⟨"block", false⟩, ⟨"default", true⟩, ⟨"line", false⟩]
  | .openSection => [⟨"block", false⟩, ⟨"inline", true⟩, ⟨"line", false⟩]
  | .closeSection => [⟨"mode", false⟩, ⟨"line", false⟩]

def forms : Variant Form where
  tag := "node"
  forms := [.text, .comment, .echo, .conditional, .each, .counted, .whilst, .extend, .insert,
    .yield, .openSection, .closeSection]
  name := Form.name
  fields := Form.fields

def branchFields : List Field := [⟨"test", false⟩, ⟨"body", false⟩]

mutual
def toTree : Node → Tree
  | .text content => forms.write .text [.string content]
  | .comment content => forms.write .comment [.string content]
  | .echo expression line => forms.write .echo [expression.toTree, .ofNat line]
  | .conditional branches none line =>
      forms.write .conditional [.array (toBranchTrees branches), .null, .ofNat line]
  | .conditional branches (some otherwise) line =>
      forms.write .conditional
        [.array (toBranchTrees branches), .array (toTrees otherwise), .ofNat line]
  | .each header body line =>
      forms.write .each [header.toTree, .array (toTrees body), .ofNat line]
  | .counted header body line =>
      forms.write .counted [header.toTree, .array (toTrees body), .ofNat line]
  | .whilst test body line =>
      forms.write .whilst [test.toTree, .array (toTrees body), .ofNat line]
  | .extend template line => forms.write .extend [template.toTree, .ofNat line]
  | .insert template line => forms.write .insert [template.toTree, .ofNat line]
  | .yield block default line =>
      forms.write .yield [block.toTree, optionalTree Expr.toTree default, .ofNat line]
  | .openSection block inline line =>
      forms.write .openSection [block.toTree, optionalTree Expr.toTree inline, .ofNat line]
  | .closeSection mode line => forms.write .closeSection [.string mode.code, .ofNat line]

def toTrees : List Node → List Tree
  | [] => []
  | node :: rest => node.toTree :: toTrees rest

def toBranchTrees : List (Expr × List Node) → List Tree
  | [] => []
  | (test, body) :: rest =>
      .record branchFields [test.toTree, .array (toTrees body)] :: toBranchTrees rest
end

-- Outside of other nodes a form must be given by its name.
mutual
def ofTree? (nested : Bool) (tree : Tree) : Option Node := do
  match ← forms.read? nested tree with
  | (.text, [⟨content, _⟩]) => return .text (← content.string?)
  | (.comment, [⟨content, _⟩]) => return .comment (← content.string?)
  | (.echo, [⟨expression, _⟩, ⟨line, _⟩]) =>
      return .echo (← Expr.ofTree? expression) (← line.natural?)
  | (.conditional, [⟨branches, _⟩, ⟨.null, _⟩, ⟨line, _⟩]) =>
      return .conditional (← branchArray? branches) none (← line.natural?)
  | (.conditional, [⟨branches, _⟩, ⟨otherwise, _⟩, ⟨line, _⟩]) =>
      return .conditional (← branchArray? branches) (some (← ofArray? otherwise)) (← line.natural?)
  | (.each, [⟨header, _⟩, ⟨body, _⟩, ⟨line, _⟩]) =>
      return .each (← EachHeader.ofTree? header) (← ofArray? body) (← line.natural?)
  | (.counted, [⟨header, _⟩, ⟨body, _⟩, ⟨line, _⟩]) =>
      return .counted (← ForHeader.ofTree? header) (← ofArray? body) (← line.natural?)
  | (.whilst, [⟨test, _⟩, ⟨body, _⟩, ⟨line, _⟩]) =>
      return .whilst (← Expr.ofTree? test) (← ofArray? body) (← line.natural?)
  | (.extend, [⟨template, _⟩, ⟨line, _⟩]) =>
      return .extend (← Expr.ofTree? template) (← line.natural?)
  | (.insert, [⟨template, _⟩, ⟨line, _⟩]) =>
      return .insert (← Expr.ofTree? template) (← line.natural?)
  | (.yield, [⟨block, _⟩, ⟨default, _⟩, ⟨line, _⟩]) =>
      return .yield (← Expr.ofTree? block) (← optional? Expr.ofTree? default) (← line.natural?)
  | (.openSection, [⟨block, _⟩, ⟨inline, _⟩, ⟨line, _⟩]) =>
      return .openSection (← Expr.ofTree? block) (← optional? Expr.ofTree? inline)
        (← line.natural?)
  | (.closeSection, [⟨mode, _⟩, ⟨line, _⟩]) =>
      return .closeSection (← mode.choice? EndMode.all EndMode.code) (← line.natural?)
  | _ => none
termination_by sizeOf tree

def ofArray? (tree : Tree) : Option (List Node) :=
  match tree with
  | .array trees => ofTrees? trees
  | _ => none
termination_by sizeOf tree

def ofTrees? (trees : List Tree) : Option (List Node) := do
  match trees with
  | [] => return []
  | tree :: rest => return (← ofTree? true tree) :: (← ofTrees? rest)
termination_by sizeOf trees

def branchArray? (tree : Tree) : Option (List (Expr × List Node)) :=
  match tree with
  | .array trees => branches? trees
  | _ => none
termination_by sizeOf tree

def branches? (trees : List Tree) : Option (List (Expr × List Node)) := do
  match trees with
  | [] => return []
  | tree :: rest => return (← branch? tree) :: (← branches? rest)
termination_by sizeOf trees

def branch? (tree : Tree) : Option (Expr × List Node) := do
  match ← tree.record? branchFields with
  | [⟨test, _⟩, ⟨body, _⟩] => return (← Expr.ofTree? test, ← ofArray? body)
  | _ => none
termination_by sizeOf tree
end

end Node

namespace Program

def fields : List Field := [⟨"format", false⟩, ⟨"template", false⟩, ⟨"nodes", false⟩]

def toTree (program : Program) : Tree :=
  .record fields
    [.string program.format, .string program.template, .array (Node.toTrees program.nodes)]

def rootNode? (tree : Tree) : Option Node := if tree.isReadable then Node.ofTree? false tree else none

def ofTree? (tree : Tree) : Option Program := do
  match ← tree.record? fields with
  | [⟨format, _⟩, ⟨template, _⟩, ⟨nodes, _⟩] =>
      return ⟨← format.string?, ← template.string?, ← list? rootNode? nodes⟩
  | _ => none

def code (program : Program) : String := program.toTree.text

def ofCode? (code : String) : Option Program := do
  let program ← ofTree? (← Tree.ofText? code)
  if program.format = currentFormat then some program else none

end Program

end Stencil
