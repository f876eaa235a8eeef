import Stencil.Expr.Basic

set_option autoImplicit false

namespace Stencil

mutual
def Expr.Each (literal : Value → Prop) : Expr → Prop
  | .literal value => literal value
  | .array items => Expr.EachOf literal items
  | .var _ => True
  | .member target _ => target.Each literal
  | .index target key => target.Each literal ∧ key.Each literal
  | .unary _ operand => operand.Each literal
  | .binary _ left right => left.Each literal ∧ right.Each literal
  | .coalesce left right => left.Each literal ∧ right.Each literal
  | .choice test positive negative =>
      test.Each literal ∧ positive.Each literal ∧ negative.Each literal
  | .elvis test otherwise => test.Each literal ∧ otherwise.Each literal
  | .call _ args => Expr.EachOf literal args
  | .isset target => target.Each literal
  | .empty target => target.Each literal

def Expr.EachOf (literal : Value → Prop) : List Expr → Prop
  | [] => True
  | e :: rest => e.Each literal ∧ Expr.EachOf literal rest
end

def Assignment.Each (part : Expr → Prop) : Assignment → Prop
  | .set _ value => part value
  | .add _ value => part value
  | .sub _ value => part value
  | .increment _ => True
  | .decrement _ => True

def EachHeader.Each (part : Expr → Prop) (header : EachHeader) : Prop := part header.source

def ForHeader.Each (part : Expr → Prop) (header : ForHeader) : Prop :=
  (∀ statement ∈ header.init, statement.Each part) ∧ (∀ test ∈ header.condition, part test) ∧
    ∀ statement ∈ header.step, statement.Each part

namespace Expr

theorem eachOf_iff (literal : Value → Prop) (items : List Expr) :
    EachOf literal items ↔ ∀ e ∈ items, e.Each literal := by
  induction items with
  | nil => simp [EachOf]
  | cons e rest ih => simp only [EachOf, ih, List.forall_mem_cons]

mutual
theorem each_both (P Q R : Value → Prop) (join : ∀ value, P value → Q value → R value) (e : Expr)
    (first : e.Each P) (second : e.Each Q) : e.Each R := by
  cases e with
  | literal value => exact join value first second
  | array items => exact eachOf_both P Q R join items first second
  | var name => trivial
  | member target _ | unary _ target | isset target | empty target =>
      exact each_both P Q R join target first second
  | index left right | binary _ left right | coalesce left right | elvis left right =>
      exact ⟨each_both P Q R join left first.1 second.1, each_both P Q R join right first.2 second.2⟩
  | choice test positive negative =>
      exact ⟨each_both P Q R join test first.1 second.1,
        each_both P Q R join positive first.2.1 second.2.1,
        each_both P Q R join negative first.2.2 second.2.2⟩
  | call function args => exact eachOf_both P Q R join args first second

theorem eachOf_both (P Q R : Value → Prop) (join : ∀ value, P value → Q value → R value)
    (items : List Expr) (first : EachOf P items) (second : EachOf Q items) : EachOf R items := by
  cases items with
  | nil => trivial
  | cons e rest =>
      exact ⟨each_both P Q R join e first.1 second.1, eachOf_both P Q R join rest first.2 second.2⟩
end

end Expr

theorem Assignment.each_both (P Q R : Expr → Prop) (join : ∀ e, P e → Q e → R e)
    (statement : Assignment) (first : statement.Each P) (second : statement.Each Q) : statement.Each R := by
  cases statement with
  | set _ value | add _ value | sub _ value => exact join value first second
  | increment | decrement => trivial

theorem Assignment.each_all (part : Expr → Prop) (all : ∀ e, part e) (statement : Assignment) :
    statement.Each part := by
  cases statement with
  | set _ value | add _ value | sub _ value => exact all value
  | increment | decrement => trivial

theorem EachHeader.each_all (part : Expr → Prop) (all : ∀ e, part e) (header : EachHeader) : header.Each part :=
  all header.source

theorem ForHeader.each_all (part : Expr → Prop) (all : ∀ e, part e) (header : ForHeader) : header.Each part :=
  ⟨fun statement _ => statement.each_all part all, fun test _ => all test,
    fun statement _ => statement.each_all part all⟩

theorem EachHeader.each_both (P Q R : Expr → Prop) (join : ∀ e, P e → Q e → R e)
    (header : EachHeader) (first : header.Each P) (second : header.Each Q) : header.Each R :=
  join header.source first second

theorem ForHeader.each_both (P Q R : Expr → Prop) (join : ∀ e, P e → Q e → R e)
    (header : ForHeader) (first : header.Each P) (second : header.Each Q) : header.Each R := by
  refine ⟨fun statement inside => ?_, fun test inside => ?_, fun statement inside => ?_⟩
  · exact statement.each_both P Q R join (first.1 statement inside) (second.1 statement inside)
  · exact join test (first.2.1 test inside) (second.2.1 test inside)
  · exact statement.each_both P Q R join (first.2.2 statement inside) (second.2.2 statement inside)

end Stencil
