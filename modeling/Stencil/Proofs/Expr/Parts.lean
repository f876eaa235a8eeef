import Stencil.Proofs.Expr.Each
import Stencil.Proofs.Expr.Grammar

set_option autoImplicit false

namespace Stencil

def Reads (P : Expr → Prop) : Prop :=
  ∀ (c : Cursor) (e : Expr) (next : c.Later), expression c = .ok (e, next) → P e

variable {P : Expr → Prop}

theorem part_parse (reads : Reads P) (text : List Char) (e : Expr) (parsed : Expr.parse text = .ok e) : P e := by
  obtain ⟨c, next, _, inner, _⟩ := (parse_iff_whole text e).mp parsed
  exact reads c e next inner

theorem parts_moreArguments (reads : Reads P) (c : Cursor) (list : List Expr) (next : c.NotEarlier)
    (parsed : moreArguments c = .ok (list, next)) : ∀ e ∈ list, P e := by
  rw [moreArguments] at parsed
  split at parsed
  · obtain ⟨rfl, rfl⟩ := Prod.mk.inj (Except.ok.inj parsed)
    simp
  · rename_i comma _
    obtain ⟨⟨e, item⟩, first, parsed⟩ := (bind_eq_ok _ _ _).mp parsed
    obtain ⟨⟨rest, last⟩, more, parsed⟩ := (bind_eq_ok _ _ _).mp parsed
    obtain ⟨rfl, rfl⟩ := Prod.mk.inj (Except.ok.inj parsed)
    have shorter := (comma.later item).property
    exact List.forall_mem_cons.mpr ⟨reads _ e _ first, parts_moreArguments reads _ rest _ more⟩
termination_by c.left

theorem parts_parseAll (reads : Reads P) (text : List Char) (list : List Expr) (parsed : Expr.parseAll text = .ok list) :
    ∀ e ∈ list, P e := by
  rw [Expr.parseAll] at parsed
  obtain ⟨c, _, parsed⟩ := (bind_eq_ok _ _ _).mp parsed
  rw [Expr.several] at parsed
  split at parsed
  · obtain rfl := Except.ok.inj parsed
    simp
  · obtain ⟨⟨e, afterFirst, _⟩, first, parsed⟩ := (bind_eq_ok _ _ _).mp parsed
    obtain ⟨⟨rest, last, _⟩, more, parsed⟩ := (bind_eq_ok _ _ _).mp parsed
    obtain ⟨_, _, parsed⟩ := (bind_eq_ok _ _ _).mp parsed
    obtain rfl := Except.ok.inj parsed
    exact List.forall_mem_cons.mpr ⟨reads c e _ first, parts_moreArguments reads _ rest _ more⟩

theorem parts_eachHeader (reads : Reads P) (text : List Char) (header : EachHeader) (parsed : EachHeader.parse text = .ok header) :
    header.Each P := by
  rw [EachHeader.parse] at parsed
  obtain ⟨c, _, parsed⟩ := (bind_eq_ok _ _ _).mp parsed
  obtain ⟨⟨source, afterSource, _⟩, first, parsed⟩ := (bind_eq_ok _ _ _).mp parsed
  have holds := reads c source _ first
  dsimp only at parsed
  split at parsed
  · simp at parsed
  · obtain ⟨⟨name, afterName, _⟩, _, parsed⟩ := (bind_eq_ok _ _ _).mp parsed
    dsimp only at parsed
    split at parsed
    · obtain ⟨_, _, parsed⟩ := (bind_eq_ok _ _ _).mp parsed
      obtain rfl := Except.ok.inj parsed
      exact holds
    · obtain ⟨⟨second, last, _⟩, _, parsed⟩ := (bind_eq_ok _ _ _).mp parsed
      obtain ⟨_, _, parsed⟩ := (bind_eq_ok _ _ _).mp parsed
      obtain rfl := Except.ok.inj parsed
      exact holds

theorem parts_withValue (reads : Reads P) (c : Cursor) (after : c.Later) (assign : Expr → Assignment) (statement : Assignment)
    (next : c.Later) (keeps : ∀ e : Expr, P e → (assign e).Each P)
    (parsed : Assignment.behind.withValue after assign = .ok (statement, next)) :
    statement.Each P := by
  rw [Assignment.behind.withValue] at parsed
  obtain ⟨⟨value, last⟩, inner, parsed⟩ := (bind_eq_ok _ _ _).mp parsed
  obtain ⟨rfl, rfl⟩ := Prod.mk.inj (Except.ok.inj parsed)
  exact keeps value (reads _ value _ inner)

theorem parts_behind (reads : Reads P) (name : String) (c : Cursor) (statement : Assignment) (next : c.Later)
    (parsed : Assignment.behind name c = .ok (statement, next)) : statement.Each P := by
  rw [Assignment.behind] at parsed
  split at parsed
  · simp at parsed
  · split at parsed
    · exact parts_withValue reads c _ (.set name) statement next (fun _ holds => holds) parsed
    · exact parts_withValue reads c _ (.add name) statement next (fun _ holds => holds) parsed
    · exact parts_withValue reads c _ (.sub name) statement next (fun _ holds => holds) parsed
    · obtain ⟨rfl, rfl⟩ := Prod.mk.inj (Except.ok.inj parsed)
      trivial
    · obtain ⟨rfl, rfl⟩ := Prod.mk.inj (Except.ok.inj parsed)
      trivial
    · simp at parsed

theorem parts_assignment (reads : Reads P) (c : Cursor) (statement : Assignment) (next : c.Later)
    (parsed : Assignment.parse c = .ok (statement, next)) : statement.Each P := by
  rw [Assignment.parse] at parsed
  split at parsed
  · obtain ⟨⟨name, after⟩, _, parsed⟩ := (bind_eq_ok _ _ _).mp parsed
    obtain ⟨rfl, rfl⟩ := Prod.mk.inj (Except.ok.inj parsed)
    trivial
  · split at parsed
    · obtain ⟨⟨name, after⟩, _, parsed⟩ := (bind_eq_ok _ _ _).mp parsed
      obtain ⟨rfl, rfl⟩ := Prod.mk.inj (Except.ok.inj parsed)
      trivial
    · obtain ⟨⟨name, after⟩, _, parsed⟩ := (bind_eq_ok _ _ _).mp parsed
      obtain ⟨⟨found, last⟩, inner, parsed⟩ := (bind_eq_ok _ _ _).mp parsed
      obtain ⟨rfl, rfl⟩ := Prod.mk.inj (Except.ok.inj parsed)
      exact parts_behind reads name _ found _ inner

theorem parts_assignments (reads : Reads P) (c : Cursor) (list : List Assignment) (next : c.Later)
    (parsed : assignments c = .ok (list, next)) : ∀ statement ∈ list, statement.Each P := by
  rw [assignments] at parsed
  obtain ⟨⟨first, after⟩, start, parsed⟩ := (bind_eq_ok _ _ _).mp parsed
  have holds := parts_assignment reads c first after start
  dsimp only at parsed
  split at parsed
  · obtain ⟨rfl, rfl⟩ := Prod.mk.inj (Except.ok.inj parsed)
    exact List.forall_mem_singleton.mpr holds
  · rename_i comma _
    obtain ⟨⟨rest, last⟩, more, parsed⟩ := (bind_eq_ok _ _ _).mp parsed
    obtain ⟨rfl, rfl⟩ := Prod.mk.inj (Except.ok.inj parsed)
    have shorter := (after.later comma).property
    exact List.forall_mem_cons.mpr ⟨holds, parts_assignments reads _ rest _ more⟩
termination_by c.left

theorem parts_initial (reads : Reads P) (c next : Cursor) (list : List Assignment) (parsed : initial c = .ok (list, next)) :
    ∀ statement ∈ list, statement.Each P := by
  rw [initial] at parsed
  split at parsed
  · obtain ⟨rfl, rfl⟩ := Prod.mk.inj (Except.ok.inj parsed)
    simp
  · obtain ⟨⟨found, last, _⟩, inner, parsed⟩ := (bind_eq_ok _ _ _).mp parsed
    obtain ⟨rfl, rfl⟩ := Prod.mk.inj (Except.ok.inj parsed)
    exact parts_assignments reads c found _ inner

theorem parts_loopTest (reads : Reads P) (c next : Cursor) (test : Option Expr) (parsed : loopTest c = .ok (test, next)) :
    ∀ e ∈ test, P e := by
  rw [loopTest] at parsed
  split at parsed
  · obtain ⟨rfl, rfl⟩ := Prod.mk.inj (Except.ok.inj parsed)
    simp
  · obtain ⟨⟨found, last, _⟩, inner, parsed⟩ := (bind_eq_ok _ _ _).mp parsed
    obtain ⟨rfl, rfl⟩ := Prod.mk.inj (Except.ok.inj parsed)
    intro e inside
    obtain rfl := Option.some.inj inside
    exact reads c found _ inner

theorem parts_final (reads : Reads P) (c next : Cursor) (list : List Assignment) (parsed : final c = .ok (list, next)) :
    ∀ statement ∈ list, statement.Each P := by
  rw [final] at parsed
  split at parsed
  · obtain ⟨rfl, rfl⟩ := Prod.mk.inj (Except.ok.inj parsed)
    simp
  · obtain ⟨⟨found, last, _⟩, inner, parsed⟩ := (bind_eq_ok _ _ _).mp parsed
    obtain ⟨rfl, rfl⟩ := Prod.mk.inj (Except.ok.inj parsed)
    exact parts_assignments reads c found _ inner

theorem parts_forHeader (reads : Reads P) (text : List Char) (header : ForHeader) (parsed : ForHeader.parse text = .ok header) :
    header.Each P := by
  rw [ForHeader.parse] at parsed
  obtain ⟨c, _, parsed⟩ := (bind_eq_ok _ _ _).mp parsed
  obtain ⟨⟨init, afterInit⟩, first, parsed⟩ := (bind_eq_ok _ _ _).mp parsed
  obtain ⟨⟨second, _⟩, _, parsed⟩ := (bind_eq_ok _ _ _).mp parsed
  obtain ⟨⟨test, afterTest⟩, condition, parsed⟩ := (bind_eq_ok _ _ _).mp parsed
  obtain ⟨⟨third, _⟩, _, parsed⟩ := (bind_eq_ok _ _ _).mp parsed
  obtain ⟨⟨step, last⟩, final, parsed⟩ := (bind_eq_ok _ _ _).mp parsed
  obtain ⟨_, _, parsed⟩ := (bind_eq_ok _ _ _).mp parsed
  obtain rfl := Except.ok.inj parsed
  exact ⟨parts_initial reads c _ init first, parts_loopTest reads _ _ test condition, parts_final reads _ _ step final⟩

end Stencil
