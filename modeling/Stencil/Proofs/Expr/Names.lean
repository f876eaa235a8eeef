import Stencil.Expr.Evaluation
import Stencil.Proofs.Expr.Code
import Stencil.Proofs.Value.Fields

set_option autoImplicit false

namespace Stencil

namespace Fields

variable {named : String → Prop} {vars vars' : Fields}

def AgreeOn (named : String → Prop) (vars vars' : Fields) : Prop :=
  ∀ name, named name → vars.get? name = vars'.get? name

theorem agreeOn_insert (agree : vars.AgreeOn named vars') (name : String) (value : Value) :
    (vars.insert name value).AgreeOn named (vars'.insert name value) := by
  intro query inside
  rw [get_insert, get_insert, agree query inside]

end Fields

mutual
def Expr.names : Expr → List String
  | .literal _ => []
  | .array items => Expr.allNames items
  | .var name => [name]
  | .member target _ => target.names
  | .index target key => target.names ++ key.names
  | .unary _ operand => operand.names
  | .binary _ left right => left.names ++ right.names
  | .coalesce left right => left.names ++ right.names
  | .choice test positive negative => test.names ++ (positive.names ++ negative.names)
  | .elvis test otherwise => test.names ++ otherwise.names
  | .call _ args => Expr.allNames args
  | .isset target => target.names
  | .empty target => target.names

def Expr.allNames : List Expr → List String
  | [] => []
  | e :: rest => e.names ++ Expr.allNames rest
end

namespace Expr

def isPath : Expr → Bool
  | .var _ | .member _ _ | .index _ _ => true
  | _ => false

theorem soft_other (vars : Fields) (e : Expr) (other : e.isPath = false) :
    soft vars e = (evaluate vars e).map some := by
  cases e with
  | var | member | index => cases other
  | _ => rw [soft] <;> simp

section Agreement

variable {named : String → Prop} {vars vars' : Fields} (agree : vars.AgreeOn named vars')

theorem agree_other (e : Expr) (other : e.isPath = false) (same : evaluate vars e = evaluate vars' e) :
    evaluate vars e = evaluate vars' e ∧ soft vars e = soft vars' e := by
  rw [soft_other vars e other, soft_other vars' e other, same]
  exact ⟨rfl, rfl⟩

include agree

-- In a mutual block the linter takes a hypothesis for unused that a theorem only hands on to the others.
set_option linter.unusedSectionVars false in
mutual
theorem agree_values (e : Expr) (inside : ∀ name ∈ e.names, named name) :
    evaluate vars e = evaluate vars' e ∧ soft vars e = soft vars' e := by
  cases e with
  | literal value =>
      refine agree_other _ rfl ?_
      rw [evaluate, evaluate]
  | var name =>
      have found := agree name (inside name (List.mem_singleton_self name))
      exact ⟨by rw [evaluate, evaluate, found], by rw [soft, soft, found]⟩
  | array items =>
      refine agree_other _ rfl ?_
      rw [evaluate, evaluate, agree_all items inside]
  | call function args =>
      refine agree_other _ rfl ?_
      rw [evaluate, evaluate, agree_all args inside]
  | member target field =>
      obtain ⟨value, path⟩ := agree_values target inside
      exact ⟨by rw [evaluate, evaluate, value], by rw [soft, soft, path]⟩
  | index target key =>
      obtain ⟨first, second⟩ := List.forall_mem_append.mp inside
      obtain ⟨value, path⟩ := agree_values target first
      have key := (agree_values key second).1
      exact ⟨by rw [evaluate, evaluate, value, key], by rw [soft, soft, path, key]⟩
  | unary op operand =>
      refine agree_other _ rfl ?_
      rw [evaluate, evaluate, (agree_values operand inside).1]
  | binary op left right =>
      obtain ⟨first, second⟩ := List.forall_mem_append.mp inside
      have left := (agree_values left first).1
      have right := (agree_values right second).1
      refine agree_other _ rfl ?_
      cases op <;> simp only [evaluate, left, right]
  | coalesce left right =>
      obtain ⟨first, second⟩ := List.forall_mem_append.mp inside
      refine agree_other _ rfl ?_
      rw [evaluate, evaluate, (agree_values left first).2, (agree_values right second).1]
  | choice test positive negative =>
      obtain ⟨first, others⟩ := List.forall_mem_append.mp inside
      obtain ⟨second, third⟩ := List.forall_mem_append.mp others
      refine agree_other _ rfl ?_
      rw [evaluate, evaluate, (agree_values test first).1, (agree_values positive second).1,
        (agree_values negative third).1]
  | elvis test otherwise =>
      obtain ⟨first, second⟩ := List.forall_mem_append.mp inside
      refine agree_other _ rfl ?_
      rw [evaluate, evaluate, (agree_values test first).1, (agree_values otherwise second).1]
  | isset target | empty target =>
      refine agree_other _ rfl ?_
      rw [evaluate, evaluate, (agree_values target inside).2]

theorem agree_all (items : List Expr) (inside : ∀ name ∈ allNames items, named name) :
    evaluateAll vars items = evaluateAll vars' items := by
  match items with
  | [] => rw [evaluateAll, evaluateAll]
  | e :: rest =>
      obtain ⟨first, others⟩ := List.forall_mem_append.mp inside
      rw [evaluateAll, evaluateAll, (agree_values e first).1, agree_all rest others]
end

end Agreement

mutual
theorem names_reread (e other : Expr) (read : e.reread? = some other) : other.names = e.names := by
  cases e with
  | var name =>
      obtain rfl := Option.some.inj read
      rfl
  | literal value =>
      simp only [reread?, Option.bind_eq_bind, Option.bind_eq_some_iff, Option.pure_def, Option.some.injEq] at read
      obtain ⟨value', _, rfl⟩ := read
      rfl
  | array items | call function items =>
      simp only [reread?, Option.bind_eq_bind, Option.bind_eq_some_iff, Option.pure_def, Option.some.injEq] at read
      obtain ⟨items', again, rfl⟩ := read
      exact allNames_reread items items' again
  | member target _ | unary _ target | isset target | empty target =>
      simp only [reread?, Option.bind_eq_bind, Option.bind_eq_some_iff, Option.pure_def, Option.some.injEq] at read
      obtain ⟨target', again, rfl⟩ := read
      exact names_reread target target' again
  | index left right | binary _ left right | coalesce left right | elvis left right =>
      simp only [reread?, Option.bind_eq_bind, Option.bind_eq_some_iff, Option.pure_def, Option.some.injEq] at read
      obtain ⟨left', first, right', second, rfl⟩ := read
      rw [names, names, names_reread left left' first, names_reread right right' second]
  | choice test positive negative =>
      simp only [reread?, Option.bind_eq_bind, Option.bind_eq_some_iff, Option.pure_def, Option.some.injEq] at read
      obtain ⟨test', first, positive', second, negative', third, rfl⟩ := read
      rw [names, names, names_reread test test' first, names_reread positive positive' second,
        names_reread negative negative' third]

theorem allNames_reread (items others : List Expr) (read : rereads? items = some others) :
    allNames others = allNames items := by
  match items with
  | [] =>
      obtain rfl := Option.some.inj read
      rfl
  | e :: rest =>
      simp only [rereads?, Option.bind_eq_bind, Option.bind_eq_some_iff, Option.pure_def, Option.some.injEq] at read
      obtain ⟨e', first, rest', later, rfl⟩ := read
      rw [allNames, allNames, names_reread e e' first, allNames_reread rest rest' later]
end

end Expr

end Stencil
