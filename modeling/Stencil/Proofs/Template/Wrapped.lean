import Stencil.Proofs.Expr.Enclosed
import Stencil.Proofs.Expr.RoundTrip
import Stencil.Proofs.Expr.Wrapped
import Stencil.Template.Echo

set_option autoImplicit false

namespace Stencil.Template

inductive EchoKind.Wraps : EchoKind → List Char → List Char → Prop where
  | escaped (inside : List Char) : Wraps .escaped inside (Text.trim inside)
  | regular (inside : List Char) : Wraps (.regular .escaping) inside (expandFallback (Text.trim inside))

theorem expression_of_wraps (kind : EchoKind) (inside body : List Char) (wraps : kind.Wraps inside body) :
    kind.expression inside = 'e' :: '(' :: (body ++ [')']) := by
  cases wraps <;> rfl

/-- An echo that is read at all is read as the call of `e` on one expression exactly if its body is read as this
expression, and as a call of `e` on any list exactly if the body is read as this list of arguments. It is read so
if the parenthesis of the call stays open up to the last token. -/
theorem call_of_wraps (kind : EchoKind) (inside body : List Char) (wraps : kind.Wraps inside body) (e : Expr)
    (parsed : Expr.parse (kind.expression inside) = .ok e) :
    (∀ x, e = .call "e" [x] ↔ Expr.parse body = .ok x) ∧
    (∀ args, e = .call "e" args ↔ Expr.parseAll body = .ok args) ∧
    ((∀ tokens, tokenize (kind.expression inside) = .ok tokens → Enclosed tokens) →
      ∃ args, e = .call "e" args ∧ Expr.parseAll body = .ok args) := by
  rw [expression_of_wraps kind inside body wraps] at parsed ⊢
  have called := parse_called body e parsed
  refine ⟨fun x => ?_, called, fun enclosed => ?_⟩
  · rw [called, parse_iff_parseAll]
  · obtain ⟨args, same⟩ := parse_escape _ e enclosed parsed
    exact ⟨args, same, (called args).mp same⟩

theorem call_of_wraps_name :
    ∃ e, Expr.parse (EchoKind.escaped.expression " $a ".toList) = .ok e ∧ Expr.parse "$a".toList = .ok (.var "a") ∧
      e = .call "e" [.var "a"] := by
  have body : Expr.parse "$a".toList = .ok (.var "a") :=
    parse_print (.var "a") ⟨by decide, 'a', rfl, by decide⟩ (by decide)
  have read : (Expr.parse (EchoKind.escaped.expression " $a ".toList)).toOption.isSome := by decide +kernel
  cases parsed : Expr.parse (EchoKind.escaped.expression " $a ".toList) with
  | error fault =>
      rw [parsed] at read
      cases read
  | ok e => exact ⟨e, rfl, body, ((call_of_wraps _ _ _ (.escaped " $a ".toList) e parsed).1 (.var "a")).mpr body⟩

def isSum : Except ParseError Expr → Bool
  | .ok (.binary .add _ _) => true
  | _ => false

theorem eq_of_isSum (result : Except ParseError Expr) (holds : isSum result = true) :
    ∃ left right, result = .ok (.binary .add left right) := by
  unfold isSum at holds
  split at holds
  · exact ⟨_, _, rfl⟩
  · cases holds

/-- A body that is no expression and yet is read as a sum, of which only the first part stands in the call. -/
theorem sum_of_wraps :
    (∃ left right, Expr.parse (EchoKind.escaped.expression " $a) + ($b ".toList) = .ok (.binary .add left right)) ∧
    (∃ left right, Expr.parse ((EchoKind.regular .escaping).expression " $a) + ($b ".toList) =
      .ok (.binary .add left right)) ∧
    ∀ x, Expr.parse "$a) + ($b".toList ≠ .ok x := by
  refine ⟨eq_of_isSum _ (by decide +kernel), eq_of_isSum _ (by decide +kernel), fun x parsed => ?_⟩
  have failed : (Expr.parse "$a) + ($b".toList).toOption.isNone := by decide +kernel
  rw [parsed] at failed
  cases failed

end Stencil.Template
