import Mathlib.Data.List.Forall2
import Stencil.Proofs.Program.Mentions

set_option autoImplicit false

namespace Stencil

open Template

def Leaf.expressions : Leaf → List Expr
  | .text _ | .comment _ | .closeSection _ => []
  | .echo e | .extend e | .insert e => [e]
  | .yield block part | .openSection block part => block :: part.toList

namespace Mark

def expressions : Mark → List Expr
  | .leaf single => single.expressions
  | .openConditional kind test => [kind.test test]
  | .nextBranch test => [test]
  | .openLoop head => head.expressions
  | .lastBranch | .closeConditional _ | .closeLoop _ => []

def opened (piece : Piece) (outer : List Piece) : Mark → List Piece
  | .openConditional _ _ | .openLoop _ => piece :: outer
  | .closeConditional _ | .closeLoop _ => outer.tail
  | _ => outer

-- The piece whose line is told by errors in another one.
def teller (piece : Piece) (outer : List Piece) : Mark → Piece
  | .nextBranch _ => outer.headD piece
  | _ => piece

end Mark

structure Spot where
  piece : Piece
  expression : Expr
  teller : Piece

def Spot.mention (spot : Spot) : Mention := ⟨spot.expression, spot.teller.line⟩

def spots (outer : List Piece) : List Piece → List Spot
  | [] => []
  | piece :: rest =>
      match piece.mark with
      | .ok mark =>
          (mark.expressions.map fun e => ⟨piece, e, mark.teller piece outer⟩) ++ spots (mark.opened piece outer) rest
      | .error _ => []

namespace Template.Piece

def isFurther : Piece → Bool
  | .directive .nextIf _ _ => true
  | _ => false

def IsDirective (piece : Piece) (d : Directive) : Prop := ∃ args line, piece = .directive d args line

end Template.Piece

section Marks

def Mark.directive? : Mark → Option Directive
  | .openConditional kind _ => some kind.opener
  | .nextBranch _ => some .nextIf
  | .openLoop head => some head.kind.opener
  | _ => none

theorem kind_of_loopHead (d : Directive) (kind : LoopKind) (inside : List Char) (head : LoopHead)
    (read : loopHead d kind inside = .ok head) : head.kind = kind := by
  have made {α : Type} (parsed : Except ParseError α) (build : α → LoopHead) (always : ∀ a, (build a).kind = kind)
      (read : inPlace (.directive d) (parsed.map build) = .ok head) : head.kind = kind := by
    cases parsed with
    | error e => cases read
    | ok a =>
        obtain rfl := Except.ok.inj read
        exact always a
  cases kind with
  | counted => exact made _ _ (fun _ => rfl) read
  | each => exact made _ _ (fun _ => rfl) read
  | whilst => exact made _ _ (fun _ => rfl) read

theorem directive_of_mark (d : Directive) (args : Option (List Char)) (mark : Mark) (valid : d.mark args = .ok mark) :
    ∀ named ∈ mark.directive?, named = d := by
  obtain ⟨inside, _, valid⟩ := (bind_eq_ok _ _ _).mp valid
  cases d with
  | otherwise | closeIf | closeUnless | closeFor | closeEach | closeWhile | closeSection | showSection | appendSection
  | stopSection | overwriteSection =>
      obtain rfl := Except.ok.inj valid
      intro named among
      cases among
  | openIf | nextIf | openUnless =>
      obtain ⟨test, _, valid⟩ := (bind_eq_ok _ _ _).mp valid
      obtain rfl := Except.ok.inj valid
      exact fun named same => (Option.some.inj same).symm
  | openFor | openEach | openWhile =>
      obtain ⟨head, read, valid⟩ := (bind_eq_ok _ _ _).mp valid
      obtain rfl := Except.ok.inj valid
      rw [Mark.directive?, kind_of_loopHead _ _ inside head read]
      exact fun named same => (Option.some.inj same).symm
  | extend | insert | yield | openSection =>
      obtain ⟨_, _, valid⟩ := (bind_eq_ok _ _ _).mp valid
      obtain rfl := Except.ok.inj valid
      intro named among
      cases among

theorem directive_of_piece (piece : Piece) (mark : Mark) (valid : piece.mark = .ok mark) :
    ∀ named ∈ mark.directive?, piece.IsDirective named := by
  cases piece with
  | text content line | comment content line =>
      obtain rfl := Except.ok.inj valid
      intro named among
      cases among
  | echo source expression line =>
      rw [Piece.mark] at valid
      split at valid
      · obtain rfl := Except.ok.inj valid
        intro named among
        cases among
      · cases valid
  | directive d args line =>
      cases read : d.mark args with
      | error kind =>
          rw [Piece.mark, read] at valid
          cases valid
      | ok found =>
          rw [Piece.mark, read] at valid
          obtain rfl := Except.ok.inj valid
          intro named among
          obtain rfl := directive_of_mark d args found read named among
          exact ⟨args, line, rfl⟩

end Marks

namespace Open

def mentions : Open → List Mention
  | .conditional _ branches test body line =>
      Node.branchMentions line branches.reverse ++ (mentionsOn line test.toList ++ Node.listMentions body.reverse)
  | .loop head body line => mentionsOn line head.expressions ++ Node.listMentions body.reverse

theorem mentions_branch (kind : ConditionalKind) (branches : List (Expr × List Node)) (test : Expr) (next : Option Expr)
    (body : List Node) (line : Nat) :
    (conditional kind ((test, body.reverse) :: branches) next [] line).mentions
      = (conditional kind branches (some test) body line).mentions ++ mentionsOn line next.toList := by
  simp only [mentions, List.reverse_cons, Node.branchMentions_append, List.append_assoc, List.reverse_nil,
    Node.listMentions, List.append_nil]
  rfl

end Open

namespace Assembly

def mentionsOf (root : List Node) : List Open → List Mention
  | [] => Node.listMentions root.reverse
  | block :: outer => mentionsOf root outer ++ block.mentions

def mentions (state : Assembly) : List Mention := mentionsOf state.root state.blocks

theorem mentions_push (node : Node) (state : Assembly) : (state.push node).mentions = state.mentions ++ node.mentions := by
  obtain ⟨root, blocks⟩ := state
  cases blocks with
  | nil => exact Node.listMentions_addNode node root
  | cons block outer =>
      cases block with
      | conditional kind branches test body line =>
          simp only [push, mentions, mentionsOf, Open.mentions, Node.listMentions_addNode, List.append_assoc]
      | loop head body line =>
          simp only [push, mentions, mentionsOf, Open.mentions, Node.listMentions_addNode, List.append_assoc]

theorem mentions_leaf (leaf : Leaf) (line : Nat) : (leaf.node line).mentions = mentionsOn line leaf.expressions := by
  cases leaf <;> rfl

theorem mentions_conditionalNode (kind : ConditionalKind) (branches : List (Expr × List Node)) (test : Option Expr)
    (body : List Node) (line : Nat) :
    (conditionalNode branches test body line).mentions = (Open.conditional kind branches test body line).mentions := by
  cases test with
  | none => rfl
  | some test =>
      rw [conditionalNode, Node.mentions, List.reverse_cons, Node.branchMentions_append]
      rfl

theorem mentions_loopNode (head : LoopHead) (body : List Node) (line : Nat) :
    (head.node body.reverse line).mentions = (Open.loop head body line).mentions := by
  cases head <;> rfl

theorem add_invalid (piece : Piece) (fault : Fault) (state : Assembly) (invalid : piece.mark = .error fault) :
    state.add piece = .error fault := by
  cases piece with
  | text content line | comment content line => cases invalid
  | echo source expression line =>
      rw [Piece.mark] at invalid
      rw [add]
      cases read : Expr.parse expression with
      | error e =>
          rw [read] at invalid
          exact congrArg Except.error (Except.error.inj invalid)
      | ok e =>
          rw [read] at invalid
          cases invalid
  | directive d args line =>
      rw [Piece.mark] at invalid
      rw [add, directive_eq]
      cases read : d.mark args with
      | error e =>
          rw [read] at invalid
          exact congrArg Except.error (Except.error.inj invalid)
      | ok mark =>
          rw [read] at invalid
          cases invalid

theorem mark_of_add (piece : Piece) (state next : Assembly) (done : state.add piece = .ok next) :
    ∃ mark, piece.mark = .ok mark ∧ state.take mark piece.line = .ok next := by
  cases valid : piece.mark with
  | error fault =>
      rw [add_invalid piece fault state valid] at done
      cases done
  | ok mark =>
      rw [add_eq piece mark state valid] at done
      cases taken : state.take mark piece.line with
      | error fault =>
          rw [taken] at done
          cases done
      | ok after =>
          rw [taken] at done
          obtain rfl := Except.ok.inj done
          exact ⟨mark, rfl, taken⟩

structure OpenedBy (block : Open) (piece : Piece) : Prop where
  directive : piece.IsDirective block.opener
  line : piece.line = block.line

abbrev AllOpenedBy : List Open → List Piece → Prop := List.Forall₂ OpenedBy

section

variable {mark : Mark} {piece : Piece} {outer : List Piece} {state next : Assembly}

theorem openedBy_push (node : Node) (opened : AllOpenedBy state.blocks outer) :
    AllOpenedBy (state.push node).blocks outer := by
  obtain ⟨root, blocks⟩ := state
  cases opened with
  | nil => exact .nil
  | @cons block first rest others same more =>
      cases block with
      | conditional kind branches test body line => exact .cons ⟨same.directive, same.line⟩ more
      | loop head body line => exact .cons ⟨same.directive, same.line⟩ more

structure Adds (mark : Mark) (piece : Piece) (outer : List Piece) (state next : Assembly) : Prop where
  mentions : next.mentions = state.mentions ++ mentionsOn (mark.teller piece outer).line mark.expressions
  opened : AllOpenedBy next.blocks (mark.opened piece outer)
  further : ∀ test, mark = .nextBranch test → (mark.teller piece outer).IsDirective .openIf

theorem adds_openBlock (block : Open) (opens : mark.opened piece outer = piece :: outer)
    (own : mark.teller piece outer = piece) (first : ∀ test, mark ≠ .nextBranch test)
    (filled : block.mentions = mentionsOn piece.line mark.expressions) (opener : OpenedBy block piece)
    (opened : AllOpenedBy state.blocks outer) (done : state.openBlock block = .ok next) :
    Adds mark piece outer state next := by
  rw [openBlock] at done
  split at done
  · cases done
  · obtain rfl := Except.ok.inj done
    refine ⟨?_, ?_, fun test same => absurd same (first test)⟩
    · rw [own, ← filled]
      rfl
    · rw [opens]
      exact .cons opener opened

theorem adds_nextBranch (test : Expr) (opened : AllOpenedBy state.blocks outer) (done : state.nextBranch test = .ok next) :
    Adds (.nextBranch test) piece outer state next := by
  obtain ⟨root, blocks⟩ := state
  rw [nextBranch] at done
  split at done
  · rename_i branches before body line inside shape
    obtain rfl := Except.ok.inj done
    dsimp only at shape opened
    subst shape
    cases opened with
    | cons same more =>
        refine ⟨?_, .cons ⟨same.directive, same.line⟩ more, fun _ _ => same.directive⟩
        rw [mentions, mentionsOf, Open.mentions_branch, ← List.append_assoc]
        exact congrArg (_ ++ mentionsOn · [test]) same.line.symm
  · cases done

theorem adds_lastBranch (opened : AllOpenedBy state.blocks outer) (done : state.lastBranch = .ok next) :
    Adds .lastBranch piece outer state next := by
  obtain ⟨root, blocks⟩ := state
  rw [lastBranch] at done
  split at done
  · rename_i kind branches before body line inside shape
    obtain rfl := Except.ok.inj done
    dsimp only at shape opened
    subst shape
    cases opened with
    | cons same more =>
        refine ⟨?_, .cons ⟨same.directive, same.line⟩ more, fun _ same => Mark.noConfusion same⟩
        rw [mentions, mentionsOf, Open.mentions_branch, ← List.append_assoc]
        rfl
  · cases done

theorem adds_closeConditional (kind : ConditionalKind) (opened : AllOpenedBy state.blocks outer)
    (done : state.closeConditional kind.closer = .ok next) : Adds (.closeConditional kind) piece outer state next := by
  obtain ⟨root, blocks⟩ := state
  rw [closeConditional] at done
  split at done
  · rename_i other branches test body line inside shape
    split at done
    · obtain rfl := Except.ok.inj done
      dsimp only at shape opened
      subst shape
      cases opened with
      | cons same more =>
          refine ⟨?_, openedBy_push _ more, fun _ same => Mark.noConfusion same⟩
          rw [mentions_push, mentions_conditionalNode other]
          exact (List.append_nil _).symm
    · cases done
  · cases done

theorem adds_closeLoop (kind : LoopKind) (opened : AllOpenedBy state.blocks outer)
    (done : state.closeLoop kind.closer = .ok next) : Adds (.closeLoop kind) piece outer state next := by
  obtain ⟨root, blocks⟩ := state
  rw [closeLoop] at done
  split at done
  · rename_i head body line inside shape
    split at done
    · obtain rfl := Except.ok.inj done
      dsimp only at shape opened
      subst shape
      cases opened with
      | cons same more =>
          refine ⟨?_, openedBy_push _ more, fun _ same => Mark.noConfusion same⟩
          rw [mentions_push, mentions_loopNode]
          exact (List.append_nil _).symm
    · cases done
  · cases done

theorem adds_take (valid : piece.mark = .ok mark) (opened : AllOpenedBy state.blocks outer)
    (done : state.take mark piece.line = .ok next) : Adds mark piece outer state next := by
  have named := directive_of_piece piece mark valid
  cases mark with
  | leaf leaf =>
      obtain rfl := Except.ok.inj done
      refine ⟨?_, openedBy_push _ opened, fun _ same => Mark.noConfusion same⟩
      rw [mentions_push, mentions_leaf]
      rfl
  | openConditional kind test =>
      exact adds_openBlock _ rfl rfl (fun _ same => Mark.noConfusion same) rfl ⟨named _ rfl, rfl⟩ opened done
  | openLoop head =>
      exact adds_openBlock _ rfl rfl (fun _ same => Mark.noConfusion same) (List.append_nil _) ⟨named _ rfl, rfl⟩ opened done
  | nextBranch test => exact adds_nextBranch test opened done
  | lastBranch => exact adds_lastBranch opened done
  | closeConditional kind => exact adds_closeConditional kind opened done
  | closeLoop kind => exact adds_closeLoop kind opened done

end

end Assembly

structure Spot.Placed (outer pieces : List Piece) (spot : Spot) : Prop where
  piece : spot.piece ∈ pieces
  teller : spot.teller ∈ outer ++ pieces
  visible : ¬ spot.piece.IsText
  own : spot.piece.isFurther = false → spot.teller = spot.piece
  further : spot.piece.isFurther = true → spot.teller.IsDirective .openIf

theorem mark_of_further (piece : Piece) (mark : Mark) (valid : piece.mark = .ok mark) (further : piece.isFurther = true) :
    ∃ test, mark = .nextBranch test := by
  cases piece with
  | text | comment | echo => cases further
  | directive d args line =>
      cases d with
      | nextIf =>
          cases read : Directive.mark .nextIf args with
          | error kind =>
              rw [Piece.mark, read] at valid
              cases valid
          | ok found =>
              rw [Piece.mark, read] at valid
              obtain rfl := Except.ok.inj valid
              obtain ⟨inside, _, read⟩ := (bind_eq_ok _ _ _).mp read
              obtain ⟨test, _, read⟩ := (bind_eq_ok _ _ _).mp read
              exact ⟨test, (Except.ok.inj read).symm⟩
      | _ => cases further

theorem opened_subset (mark : Mark) (piece : Piece) (outer : List Piece) :
    ∀ other ∈ mark.opened piece outer, other = piece ∨ other ∈ outer := by
  intro other inside
  cases mark with
  | openConditional | openLoop => exact List.mem_cons.mp inside
  | closeConditional | closeLoop => exact Or.inr (List.mem_of_mem_tail inside)
  | leaf | nextBranch | lastBranch => exact Or.inr inside

theorem teller_mem (mark : Mark) (piece : Piece) (outer : List Piece) :
    mark.teller piece outer = piece ∨ mark.teller piece outer ∈ outer := by
  cases mark with
  | nextBranch test =>
      cases outer with
      | nil => exact Or.inl rfl
      | cons first rest => exact Or.inr (List.mem_cons_self ..)
  | _ => exact Or.inl rfl

section

variable {mark : Mark} {piece : Piece} {outer rest : List Piece} {state next : Assembly}

theorem placed_here (valid : piece.mark = .ok mark) (adds : Assembly.Adds mark piece outer state next) (e : Expr)
    (among : e ∈ mark.expressions) : Spot.Placed outer (piece :: rest) ⟨piece, e, mark.teller piece outer⟩ where
  piece := List.mem_cons_self ..
  teller := by
    rcases teller_mem mark piece outer with same | inside
    · exact List.mem_append_right _ (List.mem_cons.mpr (Or.inl same))
    · exact List.mem_append_left _ inside
  visible := by
    rintro ⟨content, line, rfl⟩
    obtain rfl := Except.ok.inj valid
    cases among
  own first := by
    cases mark with
    | nextBranch test =>
        obtain ⟨args, line, same⟩ := directive_of_piece piece _ valid .nextIf rfl
        rw [same] at first
        cases first
    | _ => rfl
  further more := by
    obtain ⟨test, same⟩ := mark_of_further piece mark valid more
    exact adds.further test same

theorem placed_later (spot : Spot) (placed : spot.Placed (mark.opened piece outer) rest) :
    spot.Placed outer (piece :: rest) where
  piece := List.mem_cons_of_mem _ placed.piece
  teller := by
    rcases List.mem_append.mp placed.teller with inside | later
    · rcases opened_subset mark piece outer _ inside with same | inside
      · exact List.mem_append_right _ (List.mem_cons.mpr (Or.inl same))
      · exact List.mem_append_left _ inside
    · exact List.mem_append_right _ (List.mem_cons_of_mem _ later)
  visible := placed.visible
  own := placed.own
  further := placed.further

end

theorem spots_addAll (pieces outer : List Piece) (state last : Assembly)
    (opened : Assembly.AllOpenedBy state.blocks outer) (done : state.addAll pieces = .ok last) :
    last.mentions = state.mentions ++ (spots outer pieces).map Spot.mention ∧
      ∀ spot ∈ spots outer pieces, spot.Placed outer pieces := by
  induction pieces generalizing outer state with
  | nil =>
      obtain rfl := Except.ok.inj done
      exact ⟨(List.append_nil _).symm, fun spot none => absurd none List.not_mem_nil⟩
  | cons piece rest ih =>
      rw [Assembly.addAll] at done
      cases added : state.add piece with
      | error fault =>
          rw [added] at done
          cases done
      | ok next =>
          rw [added] at done
          obtain ⟨mark, valid, taken⟩ := Assembly.mark_of_add piece state next added
          have adds := Assembly.adds_take valid opened taken
          obtain ⟨more, each⟩ := ih _ next adds.opened done
          rw [spots, valid]
          refine ⟨?_, fun spot inside => ?_⟩
          · rw [more, adds.mentions, List.map_append, List.map_map, List.append_assoc]
            rfl
          · rcases List.mem_append.mp inside with here | later
            · obtain ⟨e, among, rfl⟩ := List.mem_map.mp here
              exact placed_here valid adds e among
            · exact placed_later spot (each spot later)

theorem spots_assemble (template : String) (pieces : List Piece) (program : Program)
    (done : Program.assemble template pieces = .ok program) :
    program.mentions = (spots [] pieces).map Spot.mention ∧ ∀ spot ∈ spots [] pieces, spot.Placed [] pieces := by
  obtain ⟨last, added, done⟩ := (bind_eq_ok _ _ _).mp done
  obtain ⟨nodes, finished, done⟩ := (bind_eq_ok _ _ _).mp done
  obtain rfl := Except.ok.inj done
  have kept := spots_addAll pieces [] .empty last .nil added
  obtain ⟨root, blocks⟩ := last
  cases blocks with
  | nil =>
      obtain rfl := Except.ok.inj finished
      exact kept
  | cons block outer => cases finished

end Stencil
