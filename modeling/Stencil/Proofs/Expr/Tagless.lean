import Stencil.Expr.Evaluation
import Stencil.Proofs.Expr.Code
import Stencil.Proofs.Expr.Grammar
import Stencil.Proofs.Text.Entity

set_option autoImplicit false

namespace Stencil

namespace Text

def Tagless (text : String) : Prop := '<' ∉ text.toList

instance (text : String) : Decidable (Tagless text) := inferInstanceAs (Decidable ('<' ∉ text.toList))

theorem tagless_empty : Tagless "" := by
  intro inside
  cases inside

theorem tagless_append (first second : String) (left : Tagless first) (right : Tagless second) :
    Tagless (first ++ second) := by
  intro inside
  rw [String.toList_append] at inside
  rcases List.mem_append.mp inside with early | late
  · exact left early
  · exact right late

theorem entity_plain (c : Char) : '<' ∉ entity c := by
  intro inside
  have mark : '<' = '&' := mark_of_reserved c '<' inside (by decide)
  exact absurd mark (by decide)

theorem tagless_escapeHtml (text : String) : Tagless (escapeHtml text) := by
  intro inside
  rw [escapeHtml, String.toList_ofList] at inside
  obtain ⟨c, _, entered⟩ := List.mem_flatMap.mp inside
  exact entity_plain c entered

end Text

namespace Expr

def Tagless (e : Expr) : Prop := ∀ vars value, evaluate vars e = .ok value → Text.Tagless value.output

-- An expression that prints no tag, also once it has been stored and read back.
def Safe (e : Expr) : Prop := e.Tagless ∧ ∀ other, e.reread? = some other → other.Tagless

theorem tagless_escape (args : List Expr) : (Expr.call "e" args).Tagless := by
  intro vars value done
  rw [evaluate] at done
  obtain ⟨values, _, done⟩ := (bind_eq_ok _ _ _).mp done
  cases values with
  | nil => cases done
  | cons given rest =>
      cases rest with
      | nil =>
          obtain rfl := Except.ok.inj done
          exact Text.tagless_escapeHtml given.output
      | cons => cases done

theorem safe_escape (args : List Expr) : (Expr.call "e" args).Safe := by
  refine ⟨tagless_escape args, fun other again => ?_⟩
  simp only [reread?, Option.bind_eq_bind, Option.bind_eq_some_iff, Option.pure_def, Option.some.injEq] at again
  obtain ⟨args', _, rfl⟩ := again
  exact tagless_escape args'

theorem safe_string (text : String) (plain : Text.Tagless text) : (Expr.literal (.string text)).Safe := by
  have tagless : (Expr.literal (.string text)).Tagless := by
    intro vars value done
    rw [evaluate] at done
    obtain rfl := Except.ok.inj done
    exact plain
  refine ⟨tagless, fun other again => ?_⟩
  obtain rfl := Option.some.inj again
  exact tagless

end Expr

end Stencil
