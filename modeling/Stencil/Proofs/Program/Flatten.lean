import Stencil.Proofs.Expr.RoundTrip
import Stencil.Proofs.Program.Nesting

set_option autoImplicit false

namespace Stencil

open Template

namespace Open

def bracket : Open → Bracket
  | .conditional kind _ test _ _ => .conditional kind test.isSome
  | .loop head _ _ => .loop head.kind

def body : Open → List Node
  | .conditional _ _ _ body _ => body
  | .loop _ body _ => body

def branchMark (branches : List (Expr × List Node)) : Option Expr → Mark
  | none => .lastBranch
  | some test => if branches.isEmpty then .openConditional .affirmed test else .nextBranch test

def head : Open → List Mark
  | .conditional _ branches test _ _ =>
      Node.branchMarks (.openConditional .affirmed) branches.reverse ++ [branchMark branches test]
  | .loop head _ _ => [.openLoop head]

end Open

namespace Assembly

def brackets (state : Assembly) : List Bracket := state.blocks.map Open.bracket

theorem brackets_push (node : Node) (state : Assembly) : (state.push node).brackets = state.brackets := by
  obtain ⟨root, blocks⟩ := state
  cases blocks with
  | nil => rfl
  | cons block outer => cases block <;> rfl

theorem brackets_openBlock (block : Open) (state : Assembly) :
    pushBracket block.bracket state.brackets = (state.openBlock block).toOption.map brackets := by
  rw [pushBracket, openBlock, brackets, List.length_map]
  split <;> rfl

theorem step_take (mark : Mark) (line : Nat) (state : Assembly) :
    mark.step state.brackets = (state.take mark line).toOption.map brackets := by
  cases mark with
  | leaf leaf => exact congrArg some (brackets_push _ state).symm
  | openConditional kind test => exact brackets_openBlock (.conditional kind [] (some (kind.test test)) [] line) state
  | openLoop head => exact brackets_openBlock (.loop head [] line) state
  | nextBranch test =>
      obtain ⟨root, blocks⟩ := state
      cases blocks with
      | nil => rfl
      | cons block outer =>
          cases block with
          | conditional kind branches done body line => cases kind <;> cases done <;> rfl
          | loop => rfl
  | lastBranch =>
      obtain ⟨root, blocks⟩ := state
      cases blocks with
      | nil => rfl
      | cons block outer =>
          cases block with
          | conditional kind branches done body line => cases done <;> rfl
          | loop => rfl
  | closeConditional kind =>
      obtain ⟨root, blocks⟩ := state
      cases blocks with
      | nil => rfl
      | cons block outer =>
          cases block with
          | conditional opened branches done body line =>
              have pushed := brackets_push (conditionalNode branches done body line) ⟨root, outer⟩
              cases opened <;> cases kind <;> first | exact congrArg some pushed.symm | rfl
          | loop => rfl
  | closeLoop kind =>
      obtain ⟨root, blocks⟩ := state
      cases blocks with
      | nil => rfl
      | cons block outer =>
          cases block with
          | conditional => rfl
          | loop head body line =>
              have pushed := brackets_push (head.node body.reverse line) ⟨root, outer⟩
              cases head <;> cases kind <;> first | exact congrArg some pushed.symm | rfl

theorem run_addAll (pieces : List Piece) (marks : List Mark) (state : Assembly)
    (valid : pieces.mapM Piece.mark = .ok marks) :
    run marks state.brackets = (state.addAll pieces).toOption.map brackets := by
  induction pieces generalizing marks state with
  | nil =>
      obtain rfl := Except.ok.inj valid
      rfl
  | cons piece rest ih =>
      rw [List.mapM_cons] at valid
      obtain ⟨mark, first, valid⟩ := (bind_eq_ok _ _ _).mp valid
      obtain ⟨others, more, valid⟩ := (bind_eq_ok _ _ _).mp valid
      obtain rfl := Except.ok.inj valid
      rw [run, step_take mark piece.line state, addAll, add_eq piece mark state first]
      cases state.take mark piece.line with
      | error fault => rfl
      | ok next => exact ih others next more

def current (state : Assembly) : List Node :=
  match state.blocks with
  | [] => state.root
  | block :: _ => block.body

def marksOf (root : List Node) : List Open → List Mark
  | [] => Node.listMarks root.reverse
  | block :: outer => marksOf root outer ++ (block.head ++ Node.listMarks block.body.reverse)

def before (state : Assembly) : List Mark :=
  match state.blocks with
  | [] => []
  | block :: outer => marksOf state.root outer ++ block.head

def marks (state : Assembly) : List Mark := marksOf state.root state.blocks

theorem marks_eq (state : Assembly) : state.marks = state.before ++ Node.listMarks state.current.reverse := by
  obtain ⟨root, blocks⟩ := state
  cases blocks with
  | nil => rfl
  | cons block outer => exact (List.append_assoc ..).symm

theorem current_push (node : Node) (state : Assembly) : (state.push node).current = addNode node state.current := by
  obtain ⟨root, blocks⟩ := state
  cases blocks with
  | nil => rfl
  | cons block outer => cases block <;> rfl

theorem before_push (node : Node) (state : Assembly) : (state.push node).before = state.before := by
  obtain ⟨root, blocks⟩ := state
  cases blocks with
  | nil => rfl
  | cons block outer => cases block <;> rfl

theorem before_end (state : Assembly) :
    state.before = [] ∨ ∃ marks last, state.before = marks ++ [last] ∧ last.isText = false := by
  obtain ⟨root, blocks⟩ := state
  cases blocks with
  | nil => exact Or.inl rfl
  | cons block outer =>
      refine Or.inr ?_
      cases block with
      | conditional kind branches test body line =>
          refine ⟨_, _, (List.append_assoc ..).symm, ?_⟩
          cases test with
          | none => rfl
          | some test => cases branches <;> rfl
      | loop head body line => exact ⟨marksOf root outer, .openLoop head, rfl, rfl⟩

theorem marks_push_text (content : String) (state : Assembly) :
    (state.push (.text content)).marks = Mark.joinBack state.marks (.leaf (.text content)) := by
  rw [marks_eq, before_push, current_push, marks_eq state]
  cases state.current with
  | nil =>
      rw [List.reverse_nil, Node.listMarks, List.append_nil]
      rcases state.before_end with none | ⟨marks, last, same, other⟩
      · rw [none]
        rfl
      · rw [same, Mark.joinBack_append, Mark.joinBack, Mark.join_other _ _ (Or.inl other), List.append_assoc]
        rfl
  | cons node rest =>
      by_cases text : ∃ before, node = .text before
      · obtain ⟨before, rfl⟩ := text
        have texts : ∀ text, Node.listMarks (.text text :: rest).reverse =
            Node.listMarks rest.reverse ++ [.leaf (.text text)] := fun text => Node.listMarks_latest _ rest
        rw [addNode, texts, texts, ← List.append_assoc, ← List.append_assoc, Mark.joinBack_append]
        rfl
      · have plain : ∀ before, node ≠ .text before := fun before same => text ⟨before, same⟩
        have added : addNode (.text content) (node :: rest) = .text content :: node :: rest := by
          cases node with
          | text before => exact absurd rfl (plain before)
          | _ => rfl
        obtain ⟨marks, last, same, other⟩ := node.marks_end plain
        rw [added, Node.listMarks_latest, Node.listMarks_latest, same, ← List.append_assoc, ← List.append_assoc,
          ← List.append_assoc, Mark.joinBack_append, Mark.joinBack, Mark.join_other _ _ (Or.inl other)]
        exact List.append_assoc _ [last] [.leaf (.text content)]

theorem marks_push (node : Node) (state : Assembly) (other : ∀ content, node ≠ .text content) :
    (state.push node).marks = state.marks ++ node.marks := by
  have added : addNode node state.current = node :: state.current := by
    cases node with
    | text content => exact absurd rfl (other content)
    | _ => rfl
  rw [marks_eq, before_push, current_push, added, Node.listMarks_latest, ← List.append_assoc, ← marks_eq]

theorem marks_openBlock (block : Open) (state next : Assembly) (empty : block.body = [])
    (done : state.openBlock block = .ok next) : next.marks = state.marks ++ block.head := by
  rw [openBlock] at done
  split at done
  · cases done
  · obtain rfl := Except.ok.inj done
    rw [marks, marksOf, empty, List.reverse_nil, Node.listMarks, List.append_nil]
    rfl

theorem head_branch (kind : ConditionalKind) (branches : List (Expr × List Node)) (test : Expr) (next : Option Expr)
    (body : List Node) (line : Nat) :
    (Open.conditional kind ((test, body.reverse) :: branches) next [] line).head =
      (Open.conditional kind branches (some test) body line).head ++ Node.listMarks body.reverse ++
        [Open.branchMark [(test, body.reverse)] next] := by
  have behind : Open.branchMark ((test, body.reverse) :: branches) next = Open.branchMark [(test, body.reverse)] next := by
    cases next <;> rfl
  rw [Open.head, Open.head, List.reverse_cons, Node.branchMarks_append, Open.branchMark, List.isEmpty_reverse, behind]
  simp only [List.append_assoc, List.cons_append, List.nil_append]

theorem marks_branch (root : List Node) (kind : ConditionalKind) (branches : List (Expr × List Node)) (test : Expr)
    (next : Option Expr) (body : List Node) (line : Nat) (outer : List Open) :
    (Assembly.mk root (.conditional kind ((test, body.reverse) :: branches) next [] line :: outer)).marks =
      (Assembly.mk root (.conditional kind branches (some test) body line :: outer)).marks ++
        [Open.branchMark [(test, body.reverse)] next] := by
  rw [marks, marks, marksOf, marksOf, head_branch]
  simp [Open.body, Node.listMarks]

theorem marks_conditionalNode (kind : ConditionalKind) (branches : List (Expr × List Node)) (test : Option Expr)
    (body : List Node) (line : Nat) :
    (conditionalNode branches test body line).marks =
      (Open.conditional kind branches test body line).head ++ Node.listMarks body.reverse ++
        [.closeConditional .affirmed] := by
  cases test with
  | none =>
      rw [conditionalNode, Node.marks, Open.head, Open.branchMark]
      simp only [List.append_assoc, List.cons_append, List.nil_append]
  | some test =>
      rw [conditionalNode, Node.marks, Open.head, Open.branchMark, List.reverse_cons, Node.branchMarks_append,
        List.isEmpty_reverse]
      simp only [List.append_assoc, List.cons_append, List.nil_append]

theorem marks_loopNode (head : LoopHead) (body : List Node) (line : Nat) :
    (head.node body.reverse line).marks =
      (Open.loop head body line).head ++ Node.listMarks body.reverse ++ [.closeLoop head.kind] := by
  cases head <;> rfl

theorem marks_nextBranch (test : Expr) (line : Nat) (state next : Assembly)
    (done : state.take (.nextBranch test) line = .ok next) : next.marks = state.marks ++ [.nextBranch test] := by
  obtain ⟨root, blocks⟩ := state
  rw [take, nextBranch] at done
  split at done
  · rename_i branches before body opened outer shape
    obtain rfl := Except.ok.inj done
    dsimp only at shape
    rw [shape]
    exact marks_branch root .affirmed branches before (some test) body opened outer
  · cases done

theorem marks_lastBranch (line : Nat) (state next : Assembly) (done : state.take .lastBranch line = .ok next) :
    next.marks = state.marks ++ [.lastBranch] := by
  obtain ⟨root, blocks⟩ := state
  rw [take, lastBranch] at done
  split at done
  · rename_i kind branches before body opened outer shape
    obtain rfl := Except.ok.inj done
    dsimp only at shape
    rw [shape]
    exact marks_branch root kind branches before none body opened outer
  · cases done

theorem marks_closeConditional (kind : ConditionalKind) (line : Nat) (state next : Assembly)
    (done : state.take (.closeConditional kind) line = .ok next) :
    next.marks = state.marks ++ [.closeConditional .affirmed] := by
  obtain ⟨root, blocks⟩ := state
  rw [take, closeConditional] at done
  split at done
  · rename_i opened branches test body before outer shape
    split at done
    · obtain rfl := Except.ok.inj done
      dsimp only at shape
      have other : ∀ content, conditionalNode branches test body before ≠ .text content := by
        intro content
        cases test <;> exact fun same => Node.noConfusion same
      rw [shape, marks_push _ _ other, marks_conditionalNode opened branches test body before, marks, marks, marksOf]
      simp only [List.append_assoc]
      rfl
    · cases done
  · cases done

theorem marks_closeLoop (kind : LoopKind) (line : Nat) (state next : Assembly)
    (done : state.take (.closeLoop kind) line = .ok next) : next.marks = state.marks ++ [.closeLoop kind] := by
  obtain ⟨root, blocks⟩ := state
  rw [take, closeLoop] at done
  split at done
  · rename_i head body before outer shape
    split at done
    · rename_i same
      obtain rfl := Except.ok.inj done
      dsimp only at shape
      have other : ∀ content, head.node body.reverse before ≠ .text content := by
        intro content
        cases head <;> exact fun same => Node.noConfusion same
      have kinds : head.kind = kind := by
        cases head <;> cases kind <;> first | rfl | cases same
      rw [shape, marks_push _ _ other, marks_loopNode, marks, marks, marksOf, kinds]
      simp only [List.append_assoc]
      rfl
    · cases done
  · cases done

theorem marks_take (mark : Mark) (line : Nat) (state next : Assembly) (done : state.take mark line = .ok next) :
    next.marks = Mark.joinBack state.marks mark.normal := by
  by_cases text : ∃ content, mark = .leaf (.text content)
  · obtain ⟨content, rfl⟩ := text
    obtain rfl := Except.ok.inj done
    exact marks_push_text content _
  · have other : mark.normal.isText = false := by
      cases mark with
      | leaf leaf =>
          cases leaf with
          | text content => exact absurd ⟨content, rfl⟩ text
          | _ => rfl
      | _ => rfl
    rw [Mark.joinBack_other _ _ other]
    cases mark with
    | leaf leaf =>
        obtain rfl := Except.ok.inj done
        cases leaf with
        | text content => exact absurd ⟨content, rfl⟩ text
        | _ => exact marks_push _ _ fun _ same => Node.noConfusion same
    | openConditional kind test => exact marks_openBlock (.conditional kind [] (some (kind.test test)) [] line) _ next rfl done
    | openLoop head => exact marks_openBlock (.loop head [] line) _ next rfl done
    | nextBranch test => exact marks_nextBranch test line state next done
    | lastBranch => exact marks_lastBranch line state next done
    | closeConditional kind => exact marks_closeConditional kind line state next done
    | closeLoop kind => exact marks_closeLoop kind line state next done

theorem marks_addAll (pieces : List Piece) (marks seen : List Mark) (state last : Assembly)
    (valid : pieces.mapM Piece.mark = .ok marks) (before : state.marks = Mark.joinTexts seen)
    (done : state.addAll pieces = .ok last) : last.marks = Mark.joinTexts (seen ++ marks.map Mark.normal) := by
  induction pieces generalizing marks seen state with
  | nil =>
      rw [List.mapM_nil] at valid
      obtain rfl := Except.ok.inj valid
      obtain rfl := Except.ok.inj done
      rw [List.map_nil, List.append_nil, before]
  | cons piece rest ih =>
      rw [List.mapM_cons] at valid
      obtain ⟨mark, first, valid⟩ := (bind_eq_ok _ _ _).mp valid
      obtain ⟨others, more, valid⟩ := (bind_eq_ok _ _ _).mp valid
      obtain rfl := Except.ok.inj valid
      rw [addAll, add_eq piece mark state first] at done
      cases taken : state.take mark piece.line with
      | error fault =>
          rw [taken] at done
          cases done
      | ok next =>
          rw [taken] at done
          have joined : next.marks = Mark.joinTexts (seen ++ [mark.normal]) := by
            rw [Mark.joinTexts_append, ← before]
            exact marks_take mark piece.line state next taken
          have rest := ih others (seen ++ [mark.normal]) next more joined done
          rw [rest, List.map_cons, List.append_assoc, List.singleton_append]

end Assembly

theorem brackets_finish (state : Assembly) : (∃ nodes, state.finish = .ok nodes) ↔ state.brackets = [] := by
  obtain ⟨root, blocks⟩ := state
  cases blocks with
  | nil => exact ⟨fun _ => rfl, fun _ => ⟨_, rfl⟩⟩
  | cons block outer => simp [Assembly.finish, Assembly.brackets]

theorem marks_finish (state : Assembly) (nodes : List Node) (finished : state.finish = .ok nodes) :
    Node.listMarks nodes = state.marks := by
  obtain ⟨root, blocks⟩ := state
  cases blocks with
  | nil =>
      obtain rfl := Except.ok.inj finished
      rfl
  | cons block outer => cases finished

theorem assemble_nested (template : String) (pieces : List Piece) (marks : List Mark)
    (valid : pieces.mapM Piece.mark = .ok marks) :
    ((∃ program, Program.assemble template pieces = .ok program) ↔ Nested .body greatestBlockDepth marks) ∧
    ∀ program, Program.assemble template pieces = .ok program →
      Node.listMarks program.nodes = Mark.joinTexts (marks.map Mark.normal) := by
  have ran : run marks [] = _ := Assembly.run_addAll pieces marks .empty valid
  constructor
  · rw [nested_iff_run, ran, Program.assemble]
    constructor
    · rintro ⟨program, done⟩
      obtain ⟨last, added, done⟩ := (bind_eq_ok _ _ _).mp done
      obtain ⟨nodes, finished, _⟩ := (bind_eq_ok _ _ _).mp done
      rw [added]
      exact congrArg some ((brackets_finish last).mp ⟨nodes, finished⟩)
    · intro ended
      cases added : Assembly.empty.addAll pieces with
      | error fault =>
          rw [added] at ended
          cases ended
      | ok last =>
          rw [added] at ended
          obtain ⟨nodes, finished⟩ := (brackets_finish last).mpr (Option.some.inj ended)
          exact ⟨⟨currentFormat, template, nodes⟩, (bind_eq_ok _ _ _).mpr ⟨last, rfl, (bind_eq_ok _ _ _).mpr
            ⟨nodes, finished, rfl⟩⟩⟩
  · intro program done
    obtain ⟨last, added, done⟩ := (bind_eq_ok _ _ _).mp done
    obtain ⟨nodes, finished, done⟩ := (bind_eq_ok _ _ _).mp done
    obtain rfl := Except.ok.inj done
    rw [marks_finish last nodes finished]
    exact Assembly.marks_addAll pieces marks [] .empty last valid rfl added

def samplePieces : List Piece :=
  [.text "x".toList 1, .directive .openUnless (some "($a)".toList) 1, .text "y".toList 1, .text "z".toList 2,
    .directive .otherwise none 2, .directive .closeUnless none 3]

theorem assemble_nested_unless :
    (∃ program, Program.assemble "t" samplePieces = .ok program) ∧
    ∀ program, Program.assemble "t" samplePieces = .ok program →
      Node.listMarks program.nodes = [.leaf (.text "x"), .openConditional .affirmed (.negate (.var "a")),
        .leaf (.text "yz"), .lastBranch, .closeConditional .affirmed] := by
  have fits : (Expr.var "a").Fits := ⟨by decide, 'a', rfl, by decide⟩
  have test : Expr.parse "$a".toList = .ok (.var "a") := parse_print (.var "a") fits (by decide)
  have placed : inPlace (.directive .openUnless) (Expr.parse "$a".toList) = .ok (.var "a") := by
    rw [test]
    rfl
  have opened : Directive.openUnless.mark (some "($a)".toList) = .ok (.openConditional .negated (.var "a")) :=
    (bind_eq_ok _ _ _).mpr ⟨"$a".toList, rfl, (bind_eq_ok _ _ _).mpr ⟨.var "a", placed, rfl⟩⟩
  have valid : samplePieces.mapM Piece.mark = .ok [.leaf (.text "x"), .openConditional .negated (.var "a"),
      .leaf (.text "y"), .leaf (.text "z"), .lastBranch, .closeConditional .negated] := by
    simp only [samplePieces, List.mapM_cons, List.mapM_nil, Piece.mark, opened]
    rfl
  obtain ⟨succeeds, kept⟩ := assemble_nested "t" samplePieces _ valid
  refine ⟨succeeds.mpr ?_, fun program done => (kept program done).trans rfl⟩
  exact .leaf _ (.conditional .negated (.var "a") (.last (.leaf _ (.leaf _ .nil)) .nil) .nil)

end Stencil
