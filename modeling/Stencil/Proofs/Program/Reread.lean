import Stencil.Proofs.Program.Code

set_option autoImplicit false

namespace Stencil

namespace Node

-- A standard that nodes meet once they are read back, if they met another one before. It asks nothing of
-- other expressions and of lines.
structure Standard.Carries (before after : Standard) : Prop where
  text : ∀ content, before.text content → after.text content
  echo : ∀ e other, before.echo e → e.reread? = some other → after.echo other
  fallback : ∀ e other, before.fallback e → e.reread? = some other → after.fallback other
  part : ∀ e, after.part e
  line : ∀ line, after.line line

theorem mem_of_mapM (default other : Option Expr) (e : Expr) (read : default.mapM Expr.reread? = some other)
    (inside : e ∈ other) : ∃ first ∈ default, first.reread? = some e := by
  cases default with
  | none =>
      obtain rfl := Option.some.inj read
      cases inside
  | some first =>
      simp only [Option.mapM_some, Option.map_eq_map, Option.map_eq_some_iff] at read
      obtain ⟨e', again, rfl⟩ := read
      obtain rfl := Option.some.inj inside
      exact ⟨first, rfl, again⟩

variable {before after : Standard}

mutual
theorem each_reread (carries : before.Carries after) (node other : Node) (each : node.Each before)
    (read : node.reread? = some other) : other.Each after := by
  match node with
  | .text content =>
      obtain rfl := Option.some.inj read
      exact carries.text content each
  | .comment _ =>
      obtain rfl := Option.some.inj read
      trivial
  | .closeSection _ _ =>
      obtain rfl := Option.some.inj read
      exact carries.line _
  | .echo e line =>
      simp only [reread?, Option.bind_eq_bind, Option.bind_eq_some_iff, Option.pure_def, Option.some.injEq] at read
      obtain ⟨e', again, rfl⟩ := read
      exact ⟨carries.echo e e' each.1 again, carries.line _⟩
  | .extend e line | .insert e line =>
      simp only [reread?, Option.bind_eq_bind, Option.bind_eq_some_iff, Option.pure_def, Option.some.injEq] at read
      obtain ⟨e', _, rfl⟩ := read
      exact ⟨carries.part _, carries.line _⟩
  | .conditional branches none line =>
      simp only [reread?, Option.bind_eq_bind, Option.bind_eq_some_iff, Option.pure_def, Option.some.injEq] at read
      obtain ⟨branches', again, rfl⟩ := read
      exact ⟨eachBranch_rereads carries branches branches' each.1 again, carries.line _⟩
  | .conditional branches (some otherwise) line =>
      simp only [reread?, Option.bind_eq_bind, Option.bind_eq_some_iff, Option.pure_def, Option.some.injEq] at read
      obtain ⟨branches', again, otherwise', last, rfl⟩ := read
      exact ⟨eachBranch_rereads carries branches branches' each.1 again,
        eachOf_rereads carries otherwise otherwise' each.2.1 last, carries.line _⟩
  | .each header body line | .counted header body line =>
      simp only [reread?, Option.bind_eq_bind, Option.bind_eq_some_iff, Option.pure_def, Option.some.injEq] at read
      obtain ⟨header', _, body', again, rfl⟩ := read
      exact ⟨header'.each_all _ carries.part, eachOf_rereads carries body body' each.2.1 again, carries.line _⟩
  | .whilst test body line =>
      simp only [reread?, Option.bind_eq_bind, Option.bind_eq_some_iff, Option.pure_def, Option.some.injEq] at read
      obtain ⟨test', _, body', again, rfl⟩ := read
      exact ⟨carries.part _, eachOf_rereads carries body body' each.2.1 again, carries.line _⟩
  | .yield block default line =>
      simp only [reread?, Option.bind_eq_bind, Option.bind_eq_some_iff, Option.pure_def, Option.some.injEq] at read
      obtain ⟨block', _, default', again, rfl⟩ := read
      refine ⟨carries.part _, fun e' inside => ?_, carries.line _⟩
      obtain ⟨e, given, first⟩ := mem_of_mapM default default' e' again inside
      exact carries.fallback e e' (each.2.1 e given) first
  | .openSection block inline line =>
      simp only [reread?, Option.bind_eq_bind, Option.bind_eq_some_iff, Option.pure_def, Option.some.injEq] at read
      obtain ⟨block', _, inline', _, rfl⟩ := read
      exact ⟨carries.part _, fun _ _ => carries.part _, carries.line _⟩

theorem eachOf_rereads (carries : before.Carries after) (nodes others : List Node) (each : EachOf before nodes)
    (read : rereads? nodes = some others) : EachOf after others := by
  match nodes with
  | [] =>
      obtain rfl := Option.some.inj read
      trivial
  | node :: rest =>
      simp only [rereads?, Option.bind_eq_bind, Option.bind_eq_some_iff, Option.pure_def, Option.some.injEq] at read
      obtain ⟨node', first, rest', later, rfl⟩ := read
      exact ⟨each_reread carries node node' each.1 first, eachOf_rereads carries rest rest' each.2 later⟩

theorem eachBranch_rereads (carries : before.Carries after) (branches others : List (Expr × List Node))
    (each : EachBranch before branches) (read : rereadBranches? branches = some others) :
    EachBranch after others := by
  match branches with
  | [] =>
      obtain rfl := Option.some.inj read
      trivial
  | (test, body) :: rest =>
      simp only [rereadBranches?, Option.bind_eq_bind, Option.bind_eq_some_iff, Option.pure_def,
        Option.some.injEq] at read
      obtain ⟨test', _, body', first, rest', later, rfl⟩ := read
      exact ⟨carries.part _, eachOf_rereads carries body body' each.2.1 first,
        eachBranch_rereads carries rest rest' each.2.2 later⟩
end

theorem eachOf_mapM (carries : before.Carries after) (nodes others : List Node) (each : EachOf before nodes)
    (read : nodes.mapM Program.rereadRoot? = some others) : EachOf after others := by
  induction nodes generalizing others with
  | nil =>
      obtain rfl := Option.some.inj read
      trivial
  | cons node rest ih =>
      simp only [List.mapM_cons, Option.bind_eq_bind, Option.bind_eq_some_iff, Option.pure_def,
        Option.some.injEq] at read
      obtain ⟨node', first, rest', later, rfl⟩ := read
      rw [Program.rereadRoot?] at first
      split at first
      · exact ⟨each_reread carries node node' each.1 first, ih rest' each.2 later⟩
      · cases first

end Node

theorem Program.each_ofCode {before after : Node.Standard} (carries : before.Carries after)
    (program other : Program) (each : Node.EachOf before program.nodes)
    (read : ofCode? program.code = some other) : Node.EachOf after other.nodes := by
  rw [ofCode_code, Option.bind_eq_bind, Option.bind_eq_some_iff] at read
  obtain ⟨nodes, again, read⟩ := read
  split at read
  · obtain rfl := Option.some.inj read
    exact Node.eachOf_mapM carries program.nodes nodes each again
  · cases read

end Stencil
