import Stencil.Proofs.Expr.Enclosed
import Stencil.Proofs.Expr.Tagless
import Stencil.Proofs.Program.Compile
import Stencil.Proofs.Program.Reread
import Stencil.Proofs.Template.Echoes

set_option autoImplicit false

namespace Stencil

open Template Text

def Node.tagless : Node.Standard := ⟨Tagless, Expr.Tagless, Expr.Tagless, fun _ => True, fun _ => True⟩

def Node.safe : Node.Standard := ⟨Tagless, Expr.Safe, Expr.Safe, fun _ => True, fun _ => True⟩

def Node.safeDefaults : Node.Standard := { Node.Standard.free with fallback := Expr.Safe }

/-- A template without tags and raw echoes. An echo has to keep the call around it open to its end, or to
print no tag all the same, and so has the default of a yield. -/
structure Template.Contained (name text : String) : Prop where
  tagless : Tagless text
  rawless : ∀ before after, text.toList ≠ before ++ EchoKind.raw.opener ++ after
  echoes : ∀ pieces source expression line, Template.pieces .escaping text.toList = .ok pieces →
    .echo source expression line ∈ pieces →
    (∀ tokens, tokenize expression = .ok tokens → Enclosed tokens) ∨
      ∀ e, Expr.parse expression = .ok e → e.Safe
  defaults : ∀ program, Program.compile .escaping name text = .ok program →
    Node.EachOf Node.safeDefaults program.nodes

variable {name text : String}

theorem Node.parsed_plain :
    Node.Standard.Parsed ⟨Tagless, Expr.Safe, fun _ => True, fun _ => True, fun _ => True⟩ where
  joined := tagless_append
  argument _ _ _ := trivial
  negated _ _ := trivial
  arguments _ _ _ _ _ := ⟨trivial, trivial⟩
  eachHeader _ _ _ := trivial
  forHeader _ header _ := header.each_all _ fun _ => trivial

theorem tagless_piece (contained : Template.Contained name text) (pieces : List Piece)
    (read : Template.pieces .escaping text.toList = .ok pieces) (content : List Char) (line : Nat)
    (inside : .text content line ∈ pieces) : Tagless (String.ofList content) := by
  intro tag
  rw [String.toList_ofList] at tag
  rcases stands_pieces .escaping text.toList pieces read _ inside with stands | ⟨_, _, same, each⟩
  · obtain ⟨before, written, after, whole, covers, _⟩ := stands
    obtain rfl := covers
    apply contained.tagless
    rw [whole]
    simp [tag]
  · obtain ⟨rfl, rfl⟩ := Piece.text.inj same
    exact contained.tagless (each _ tag)

theorem safe_echo (contained : Template.Contained name text) (pieces : List Piece)
    (read : Template.pieces .escaping text.toList = .ok pieces) (source expression : List Char) (line : Nat)
    (inside : .echo source expression line ∈ pieces) (e : Expr) (parsed : Expr.parse expression = .ok e) :
    e.Safe := by
  obtain ⟨rest, rfl⟩ :=
    escaped_of_pieces text.toList pieces contained.rawless read source expression line inside
  rcases contained.echoes pieces source _ line read inside with enclosed | safe
  · obtain ⟨args, rfl⟩ := parse_escape rest e enclosed parsed
    exact Expr.safe_escape args
  · exact safe e parsed

namespace Program

theorem safe_of_contained (contained : Template.Contained name text) (program : Program)
    (done : compile .escaping name text = .ok program) : Node.EachOf Node.safe program.nodes := by
  have defaults := contained.defaults program done
  rw [compile] at done
  obtain ⟨pieces, read, done⟩ := (bind_eq_ok _ _ _).mp done
  have plain := (each_assemble Node.parsed_plain name pieces program (fun piece inside => ?_) done).2.2
  · refine Node.eachOf_both _ _ Node.safe ?_ program.nodes plain defaults
    exact ⟨fun _ tagless _ => tagless, fun _ safe _ => safe, fun _ _ safe => safe, fun _ _ _ => trivial,
      fun _ _ _ => trivial⟩
  · cases piece with
    | text content line => exact tagless_piece contained pieces read content line inside
    | comment _ _ => trivial
    | directive _ _ _ => trivial
    | echo source expression line =>
        exact ⟨safe_echo contained pieces read source expression line inside, trivial⟩

theorem tagless_of_safe (program : Program) (safe : Node.EachOf Node.safe program.nodes) :
    Node.EachOf Node.tagless program.nodes := by
  refine Node.eachOf_both _ _ Node.tagless ?_ program.nodes safe safe
  exact ⟨fun _ tagless _ => tagless, fun _ safe _ => safe.1, fun _ safe _ => safe.1, fun _ _ _ => trivial,
    fun _ _ _ => trivial⟩

theorem tagless_ofCode (program other : Program) (safe : Node.EachOf Node.safe program.nodes)
    (read : ofCode? program.code = some other) : Node.EachOf Node.tagless other.nodes := by
  have carries : Node.safe.Carries Node.tagless := by
    refine ⟨fun _ tagless => tagless, ?_, ?_, fun _ => trivial, fun _ => trivial⟩
    · exact fun e again safe same => safe.2 again same
    · exact fun e again safe same => safe.2 again same
  exact each_ofCode carries program other safe read

end Program

end Stencil
