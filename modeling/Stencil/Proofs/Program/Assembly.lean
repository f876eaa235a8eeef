import Stencil.Program.Assembly
import Stencil.Proofs.Expr.Grammar
import Stencil.Proofs.Program.Each

set_option autoImplicit false

namespace Stencil

open Template

structure Node.Standard.Parsed (standard : Node.Standard) : Prop where
  joined : ∀ first second, standard.text first → standard.text second → standard.text (first ++ second)
  argument : ∀ text e, Expr.parse text = .ok e → standard.part e
  negated : ∀ e, standard.part e → standard.part e.negate
  arguments : ∀ text list, Expr.parseAll text = .ok list → ∀ e ∈ list, standard.part e ∧ standard.fallback e
  eachHeader : ∀ text header, EachHeader.parse text = .ok header → header.Each standard.part
  forHeader : ∀ text header, ForHeader.parse text = .ok header → header.Each standard.part

def Template.Piece.Meets (standard : Node.Standard) : Piece → Prop
  | .text content _ => standard.text (String.ofList content)
  | .comment _ _ => True
  | .directive _ _ line => standard.line line
  | .echo _ expression line => (∀ e, Expr.parse expression = .ok e → standard.echo e) ∧ standard.line line

def LoopHead.Each (standard : Node.Standard) : LoopHead → Prop
  | .counted header => header.Each standard.part
  | .each header => header.Each standard.part
  | .whilst test => standard.part test

def Open.Each (standard : Node.Standard) : Open → Prop
  | .conditional _ branches test body line =>
      Node.EachBranch standard branches ∧ (∀ e ∈ test, standard.part e) ∧ Node.EachOf standard body ∧
        standard.line line
  | .loop head body line => head.Each standard ∧ Node.EachOf standard body ∧ standard.line line

structure Assembly.Each (standard : Node.Standard) (state : Assembly) : Prop where
  root : Node.EachOf standard state.root
  blocks : ∀ block ∈ state.blocks, block.Each standard

variable {standard : Node.Standard}

theorem Node.eachOf_reverse (nodes : List Node) (each : Node.EachOf standard nodes) :
    Node.EachOf standard nodes.reverse := by
  rw [Node.eachOf_iff] at each ⊢
  exact fun node inside => each node (List.mem_reverse.mp inside)

theorem Node.eachBranch_reverse (branches : List (Expr × List Node)) (each : Node.EachBranch standard branches) :
    Node.EachBranch standard branches.reverse := by
  rw [Node.eachBranch_iff] at each ⊢
  exact fun branch inside => each branch (List.mem_reverse.mp inside)

theorem LoopHead.each_node (head : LoopHead) (body : List Node) (line : Nat) (good : head.Each standard)
    (each : Node.EachOf standard body) (place : standard.line line) : (head.node body line).Each standard := by
  cases head <;> exact ⟨good, each, place⟩

theorem each_addNode (parsed : standard.Parsed) (node : Node) (body : List Node) (good : node.Each standard)
    (each : Node.EachOf standard body) : Node.EachOf standard (addNode node body) := by
  rw [addNode.eq_def]
  split
  · exact ⟨parsed.joined _ _ each.1 good, each.2⟩
  · exact ⟨good, each⟩

namespace Assembly

theorem each_push (parsed : standard.Parsed) (node : Node) (state : Assembly) (good : node.Each standard)
    (holds : state.Each standard) : (state.push node).Each standard := by
  obtain ⟨root, blocks⟩ := holds
  rw [push]
  split
  · exact ⟨each_addNode parsed node _ good root, blocks⟩
  · rename_i kind branches test body line outer shape
    rw [shape, List.forall_mem_cons] at blocks
    obtain ⟨⟨done, open', inner, place⟩, others⟩ := blocks
    exact ⟨root, List.forall_mem_cons.mpr ⟨⟨done, open', each_addNode parsed node _ good inner, place⟩, others⟩⟩
  · rename_i head body line outer shape
    rw [shape, List.forall_mem_cons] at blocks
    obtain ⟨⟨headed, inner, place⟩, others⟩ := blocks
    exact ⟨root, List.forall_mem_cons.mpr ⟨⟨headed, each_addNode parsed node _ good inner, place⟩, others⟩⟩

theorem each_openBlock (block : Open) (state next : Assembly) (good : block.Each standard)
    (holds : state.Each standard) (done : state.openBlock block = .ok next) : next.Each standard := by
  rw [openBlock] at done
  split at done
  · simp [malformed] at done
  · obtain rfl := Except.ok.inj done
    exact ⟨holds.root, List.forall_mem_cons.mpr ⟨good, holds.blocks⟩⟩

theorem each_nextBranch (test : Expr) (state next : Assembly) (good : standard.part test)
    (holds : state.Each standard) (done : state.nextBranch test = .ok next) : next.Each standard := by
  obtain ⟨root, blocks⟩ := holds
  rw [nextBranch] at done
  split at done
  · rename_i branches condition body line outer shape
    rw [shape, List.forall_mem_cons] at blocks
    obtain ⟨⟨branches', test', inner, place⟩, others⟩ := blocks
    obtain rfl := Except.ok.inj done
    have tests : ∀ e ∈ some test, standard.part e := by simpa using good
    exact ⟨root, List.forall_mem_cons.mpr
      ⟨⟨⟨test' _ rfl, Node.eachOf_reverse body inner, branches'⟩, tests, trivial, place⟩, others⟩⟩
  · simp [malformed] at done

theorem each_lastBranch (state next : Assembly) (holds : state.Each standard)
    (done : state.lastBranch = .ok next) : next.Each standard := by
  obtain ⟨root, blocks⟩ := holds
  rw [lastBranch] at done
  split at done
  · rename_i kind branches condition body line outer shape
    rw [shape, List.forall_mem_cons] at blocks
    obtain ⟨⟨branches', test', inner, place⟩, others⟩ := blocks
    obtain rfl := Except.ok.inj done
    have tests : ∀ e ∈ (none : Option Expr), standard.part e := by simp
    exact ⟨root, List.forall_mem_cons.mpr
      ⟨⟨⟨test' _ rfl, Node.eachOf_reverse body inner, branches'⟩, tests, trivial, place⟩, others⟩⟩
  · simp [malformed] at done

theorem each_conditionalNode (branches : List (Expr × List Node)) (test : Option Expr) (body : List Node)
    (line : Nat) (done : Node.EachBranch standard branches) (tests : ∀ e ∈ test, standard.part e)
    (inner : Node.EachOf standard body) (place : standard.line line) :
    (conditionalNode branches test body line).Each standard := by
  have body' := Node.eachOf_reverse body inner
  cases test with
  | none => exact ⟨Node.eachBranch_reverse branches done, body', place⟩
  | some test =>
      have all : Node.EachBranch standard ((test, body.reverse) :: branches) := ⟨tests _ rfl, body', done⟩
      exact ⟨Node.eachBranch_reverse _ all, place⟩

theorem each_closeConditional (parsed : standard.Parsed) (d : Directive) (state next : Assembly)
    (holds : state.Each standard) (done : state.closeConditional d = .ok next) : next.Each standard := by
  obtain ⟨root, blocks⟩ := holds
  rw [closeConditional] at done
  split at done
  · rename_i kind branches test body line outer shape
    rw [shape, List.forall_mem_cons] at blocks
    obtain ⟨⟨branches', tests, inner, place⟩, others⟩ := blocks
    split at done
    · obtain rfl := Except.ok.inj done
      exact each_push parsed _ _ (each_conditionalNode branches test body line branches' tests inner place)
        ⟨root, others⟩
    · simp [malformed] at done
  · simp [malformed] at done

theorem each_closeLoop (parsed : standard.Parsed) (d : Directive) (state next : Assembly)
    (holds : state.Each standard) (done : state.closeLoop d = .ok next) : next.Each standard := by
  obtain ⟨root, blocks⟩ := holds
  rw [closeLoop] at done
  split at done
  · rename_i head body line outer shape
    rw [shape, List.forall_mem_cons] at blocks
    obtain ⟨⟨headed, inner, place⟩, others⟩ := blocks
    split at done
    · obtain rfl := Except.ok.inj done
      exact each_push parsed _ _ (head.each_node _ line headed (Node.eachOf_reverse body inner) place)
        ⟨root, others⟩
    · simp [malformed] at done
  · simp [malformed] at done

theorem inPlace_eq_ok {α : Type} (place : Place) (result : Except ParseError α) (a : α)
    (done : inPlace place result = .ok a) : result = .ok a := by
  cases result with
  | error e => cases done
  | ok b => exact congrArg Except.ok (Except.ok.inj done)

theorem part_oneArgument (parsed : standard.Parsed) (d : Directive) (inside : List Char) (e : Expr)
    (done : oneArgument d inside = .ok e) : standard.part e := by
  rw [oneArgument] at done
  obtain ⟨list, read, done⟩ := (bind_eq_ok _ _ _).mp done
  split at done
  · obtain rfl := Except.ok.inj done
    exact (parsed.arguments inside _ (inPlace_eq_ok _ _ _ read) _ (List.mem_cons_self ..)).1
  · simp [malformed] at done

theorem part_oneOrTwoArguments (parsed : standard.Parsed) (d : Directive) (inside : List Char) (first : Expr)
    (second : Option Expr) (done : oneOrTwoArguments d inside = .ok (first, second)) :
    standard.part first ∧ ∀ e ∈ second, standard.part e ∧ standard.fallback e := by
  rw [oneOrTwoArguments] at done
  obtain ⟨list, read, done⟩ := (bind_eq_ok _ _ _).mp done
  have each := parsed.arguments inside list (inPlace_eq_ok _ _ _ read)
  split at done
  · obtain ⟨rfl, rfl⟩ := Prod.mk.inj (Except.ok.inj done)
    exact ⟨(each _ (List.mem_cons_self ..)).1, by simp⟩
  · obtain ⟨rfl, rfl⟩ := Prod.mk.inj (Except.ok.inj done)
    simp only [List.forall_mem_cons] at each
    exact ⟨each.1.1, by simpa using each.2.1⟩
  · simp [malformed] at done

theorem each_loopHead (parsed : standard.Parsed) (d : Directive) (kind : LoopKind) (inside : List Char)
    (head : LoopHead) (done : loopHead d kind inside = .ok head) : head.Each standard := by
  have read := inPlace_eq_ok _ _ _ done
  cases kind with
  | counted =>
      cases header : ForHeader.parse inside with
      | error e => simp [header, Except.map] at read
      | ok found =>
          simp only [header, Except.map, Except.ok.injEq] at read
          exact read ▸ parsed.forHeader inside found header
  | each =>
      cases header : EachHeader.parse inside with
      | error e => simp [header, Except.map] at read
      | ok found =>
          simp only [header, Except.map, Except.ok.injEq] at read
          exact read ▸ parsed.eachHeader inside found header
  | whilst =>
      cases test : Expr.parse inside with
      | error e => simp [test, Except.map] at read
      | ok found =>
          simp only [test, Except.map, Except.ok.injEq] at read
          exact read ▸ parsed.argument inside found test

theorem each_directive (parsed : standard.Parsed) (d : Directive) (args : Option (List Char)) (line : Nat)
    (state next : Assembly) (place : standard.line line) (holds : state.Each standard)
    (done : state.directive d args line = .ok next) : next.Each standard := by
  rw [directive] at done
  obtain ⟨inside, _, done⟩ := (bind_eq_ok _ _ _).mp done
  split at done
  · rename_i kind _
    obtain ⟨test, read, done⟩ := (bind_eq_ok _ _ _).mp done
    have good := parsed.argument inside test (inPlace_eq_ok _ _ _ read)
    refine each_openBlock (.conditional kind [] (some _) [] line) state next
      ⟨trivial, fun e here => ?_, trivial, place⟩ holds done
    obtain rfl := Option.some.inj here
    cases kind with
    | affirmed => exact good
    | negated => exact parsed.negated test good
  · obtain ⟨test, read, done⟩ := (bind_eq_ok _ _ _).mp done
    exact each_nextBranch test state next (parsed.argument inside test (inPlace_eq_ok _ _ _ read)) holds done
  · exact each_lastBranch state next holds done
  · exact each_closeConditional parsed d state next holds done
  · obtain ⟨head, read, done⟩ := (bind_eq_ok _ _ _).mp done
    exact each_openBlock (.loop head [] line) state next
      ⟨each_loopHead parsed d _ inside head read, trivial, place⟩ holds done
  · exact each_closeLoop parsed d state next holds done
  · obtain ⟨e, read, done⟩ := (bind_eq_ok _ _ _).mp done
    obtain rfl := Except.ok.inj done
    exact each_push parsed _ state ⟨part_oneArgument parsed d inside e read, place⟩ holds
  · obtain ⟨e, read, done⟩ := (bind_eq_ok _ _ _).mp done
    obtain rfl := Except.ok.inj done
    exact each_push parsed _ state ⟨part_oneArgument parsed d inside e read, place⟩ holds
  · obtain ⟨⟨block, default⟩, read, done⟩ := (bind_eq_ok _ _ _).mp done
    obtain rfl := Except.ok.inj done
    obtain ⟨first, second⟩ := part_oneOrTwoArguments parsed d inside block default read
    exact each_push parsed _ state ⟨first, fun e here => (second e here).2, place⟩ holds
  · obtain ⟨⟨block, inline⟩, read, done⟩ := (bind_eq_ok _ _ _).mp done
    obtain rfl := Except.ok.inj done
    obtain ⟨first, second⟩ := part_oneOrTwoArguments parsed d inside block inline read
    exact each_push parsed _ state ⟨first, fun e here => (second e here).1, place⟩ holds
  · obtain rfl := Except.ok.inj done
    exact each_push parsed _ state place holds

theorem each_add (parsed : standard.Parsed) (piece : Piece) (state next : Assembly)
    (meets : piece.Meets standard) (holds : state.Each standard) (done : state.add piece = .ok next) :
    next.Each standard := by
  cases piece with
  | text content line =>
      obtain rfl := Except.ok.inj done
      exact each_push parsed _ state meets holds
  | comment content line =>
      obtain rfl := Except.ok.inj done
      exact each_push parsed _ state trivial holds
  | directive d args line =>
      rw [add] at done
      cases made : state.directive d args line with
      | error fault =>
          rw [made] at done
          cases done
      | ok after =>
          rw [made] at done
          obtain rfl := Except.ok.inj done
          exact each_directive parsed d args line state after meets holds made
  | echo source expression line =>
      rw [add] at done
      split at done
      · rename_i e read
        obtain rfl := Except.ok.inj done
        exact each_push parsed _ state ⟨meets.1 e read, meets.2⟩ holds
      · simp at done

theorem each_addAll (parsed : standard.Parsed) (pieces : List Piece) (state last : Assembly)
    (meet : ∀ piece ∈ pieces, piece.Meets standard) (holds : state.Each standard)
    (done : state.addAll pieces = .ok last) : last.Each standard := by
  induction pieces generalizing state with
  | nil =>
      obtain rfl := Except.ok.inj done
      exact holds
  | cons piece rest ih =>
      rw [List.forall_mem_cons] at meet
      rw [addAll] at done
      split at done
      · rename_i next added
        exact ih next meet.2 (each_add parsed piece state next meet.1 holds added) done
      · simp at done

end Assembly

theorem Program.each_assemble (parsed : standard.Parsed) (template : String) (pieces : List Piece)
    (program : Program) (meet : ∀ piece ∈ pieces, piece.Meets standard)
    (done : Program.assemble template pieces = .ok program) :
    program.format = currentFormat ∧ program.template = template ∧ Node.EachOf standard program.nodes := by
  rw [Program.assemble] at done
  obtain ⟨state, added, done⟩ := (bind_eq_ok _ _ _).mp done
  obtain ⟨nodes, finished, done⟩ := (bind_eq_ok _ _ _).mp done
  obtain rfl := Except.ok.inj done
  have holds := Assembly.each_addAll parsed pieces .empty state meet ⟨trivial, by simp [Assembly.empty]⟩
    added
  rw [Assembly.finish] at finished
  split at finished
  · obtain rfl := Except.ok.inj finished
    exact ⟨rfl, rfl, Node.eachOf_reverse state.root holds.root⟩
  · simp at finished

end Stencil
