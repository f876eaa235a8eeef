import Stencil.Program.Compile
import Stencil.Proofs.Expr.Literal
import Stencil.Proofs.Program.Assembly
import Stencil.Proofs.Program.Code
import Stencil.Proofs.Template.Pieces

set_option autoImplicit false

namespace Stencil

open Template

theorem Node.Standard.parsed_scalar (line : Nat → Prop) : (literals Value.IsScalar line).Parsed where
  joined _ _ _ _ := trivial
  argument := scalar_parse
  negated _ scalar := scalar
  arguments text list read e inside :=
    ⟨scalar_parseAll text list read e inside, scalar_parseAll text list read e inside⟩
  eachHeader := scalar_eachHeader
  forHeader := scalar_forHeader

theorem Value.ordered_of_scalar (value : Value) (scalar : value.IsScalar) : value.Ordered := by
  cases value with
  | list _ => exact scalar.elim
  | object _ => exact scalar.elim
  | _ => trivial

theorem Template.Piece.meets_scalar (piece : Piece) (last : Nat)
    (place : (∃ content line, piece = .text content line) ∨ piece.line ≤ last) :
    piece.Meets (.literals Value.IsScalar (· ≤ last)) := by
  rcases place with ⟨content, line, rfl⟩ | below
  · trivial
  · cases piece with
    | text | comment => trivial
    | directive => exact below
    | echo source expression line => exact ⟨scalar_parse expression, below⟩

namespace Program

theorem compile_parts (format : EchoFormat) (template text : String) (program : Program)
    (done : compile format template text = .ok program) :
    program.format = currentFormat ∧ program.template = template ∧
      Node.EachOf (.literals Value.IsScalar (· ≤ 1 + Text.breaks text.toList)) program.nodes := by
  rw [compile] at done
  obtain ⟨pieces, read, done⟩ := (bind_eq_ok _ _ _).mp done
  have places := line_of_pieces format text.toList pieces read
  exact each_assemble (Node.Standard.parsed_scalar _) template pieces program
    (fun piece inside => piece.meets_scalar _ (places piece inside)) done

theorem wellFormed_compile (format : EchoFormat) (template text : String) (program : Program)
    (short : 1 + Text.breaks text.toList < Decimal.wordLimit)
    (done : compile format template text = .ok program) : program.WellFormed := by
  have parts := (compile_parts format template text program done).2.2
  refine Node.eachOf_both _ _ _ (Node.Standard.join_literals _ _ _ _ _ _ ?_ ?_) program.nodes parts parts
  · exact fun value scalar _ => value.ordered_of_scalar scalar
  · intro line below _
    omega

theorem ofCode_compile (format : EchoFormat) (template text : String) (program : Program)
    (short : 1 + Text.breaks text.toList < Decimal.wordLimit)
    (reads : program.FloatsReadBack) (done : compile format template text = .ok program) :
    ofCode? program.code = some program :=
  ofCode_code_self program (compile_parts format template text program done).1
    (wellFormed_compile format template text program short done) reads

end Program

end Stencil
