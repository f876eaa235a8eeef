import Stencil.Proofs.Expr.Parts

set_option autoImplicit false

namespace Stencil

def Value.IsScalar : Value → Prop
  | .list _ => False
  | .object _ => False
  | _ => True

namespace Expr

abbrev Scalar (e : Expr) : Prop := e.Each Value.IsScalar

end Expr

def Phrase.found? : Phrase → Option Expr
  | .links _ _ _ left => some left
  | .selections _ target => some target
  | _ => none

theorem scalar_constant (name : String) (offset : Nat) (e : Expr) (made : constant name offset = .ok e) :
    e.Scalar := by
  simp only [constant] at made
  split at made
  · obtain rfl := Except.ok.inj made
    trivial
  · split at made
    · obtain rfl := Except.ok.inj made
      trivial
    · split at made
      · obtain rfl := Except.ok.inj made
        trivial
      · simp at made

theorem scalar_callOf (name : String) (offset : Nat) (args : List Expr) (e : Expr)
    (scalar : ∀ arg ∈ args, arg.Scalar) (made : callOf name offset args = .ok e) : e.Scalar := by
  simp only [callOf] at made
  split at made
  · split at made
    · rename_i target
      have inner := scalar target (List.mem_cons_self ..)
      obtain rfl := Except.ok.inj made
      split <;> exact inner
    · simp at made
  · obtain rfl := Except.ok.inj made
    exact (Expr.eachOf_iff _ args).mpr scalar

theorem scalar_of_derives (phrase : Phrase) (c next : Cursor) (result : List Expr)
    (derived : Derives phrase c result next) (found : ∀ e ∈ phrase.found?, e.Scalar) :
    ∀ e ∈ result, e.Scalar := by
  induction derived with
  | expression _ _ ih | test _ ih | present _ ih | operand _ ih | plain _ ih | group _ _ _ ih =>
      exact ih (by simp [Phrase.found?])
  | elvis _ _ _ _ first second | coalesce _ _ _ _ first second =>
      have left := first (by simp [Phrase.found?])
      have right := second (by simp [Phrase.found?])
      simp only [List.forall_mem_singleton] at left right ⊢
      exact ⟨left, right⟩
  | choice _ _ _ _ _ first second third =>
      have test := first (by simp [Phrase.found?])
      have positive := second (by simp [Phrase.found?])
      have negative := third (by simp [Phrase.found?])
      simp only [List.forall_mem_singleton] at test positive negative ⊢
      exact ⟨test, positive, negative⟩
  | level _ _ start more | access _ _ start more =>
      have start := start (by simp [Phrase.found?])
      simp only [List.forall_mem_singleton] at start
      exact more (by simpa [Phrase.found?] using start)
  | unlinked | unselected =>
      simpa [Phrase.found?] using found
  | link _ _ _ _ _ operand more =>
      have right := operand (by simp [Phrase.found?])
      simp only [List.forall_mem_singleton, Phrase.found?, Option.mem_def, Option.some.injEq,
        forall_eq'] at right found more
      exact List.forall_mem_singleton.mpr (more ⟨found, right⟩)
  | unary _ _ _ _ ih =>
      have operand := List.forall_mem_singleton.mp (ih (by simp [Phrase.found?]))
      exact List.forall_mem_singleton.mpr operand
  | member _ _ _ _ _ _ more =>
      simp only [List.forall_mem_singleton, Phrase.found?, Option.mem_def, Option.some.injEq,
        forall_eq'] at found more ⊢
      exact more found
  | index _ _ _ _ _ inner more =>
      have key := inner (by simp [Phrase.found?])
      simp only [List.forall_mem_singleton, Phrase.found?, Option.mem_def, Option.some.injEq,
        forall_eq'] at key found more ⊢
      exact more ⟨found, key⟩
  | integer | double | text | var => exact List.forall_mem_singleton.mpr trivial
  | array _ _ ih =>
      exact List.forall_mem_singleton.mpr ((Expr.eachOf_iff _ _).mpr (ih (by simp [Phrase.found?])))
  | call _ _ _ made ih =>
      exact List.forall_mem_singleton.mpr (scalar_callOf _ _ _ _ (ih (by simp [Phrase.found?])) made)
  | constant _ made => exact List.forall_mem_singleton.mpr (scalar_constant _ _ _ made)
  | noItems | noMoreItems => simp
  | items _ _ start more | moreItems _ _ _ start more =>
      have first := start (by simp [Phrase.found?])
      have rest := more (by simp [Phrase.found?])
      exact List.forall_mem_cons.mpr ⟨List.forall_mem_singleton.mp first, rest⟩

theorem scalar_expression (c : Cursor) (e : Expr) (next : c.Later) (parsed : expression c = .ok (e, next)) :
    e.Scalar :=
  List.forall_mem_singleton.mp
    (scalar_of_derives _ _ _ _ (derives_expression c e next parsed) (by simp [Phrase.found?]))

theorem scalar_parse (text : List Char) (e : Expr) (parsed : Expr.parse text = .ok e) : e.Scalar :=
  part_parse scalar_expression text e parsed

theorem scalar_parseAll (text : List Char) (list : List Expr) (parsed : Expr.parseAll text = .ok list) :
    ∀ e ∈ list, e.Scalar :=
  parts_parseAll scalar_expression text list parsed

theorem scalar_eachHeader (text : List Char) (header : EachHeader) (parsed : EachHeader.parse text = .ok header) :
    header.Each Expr.Scalar :=
  parts_eachHeader scalar_expression text header parsed

theorem scalar_forHeader (text : List Char) (header : ForHeader) (parsed : ForHeader.parse text = .ok header) :
    header.Each Expr.Scalar :=
  parts_forHeader scalar_expression text header parsed

end Stencil
