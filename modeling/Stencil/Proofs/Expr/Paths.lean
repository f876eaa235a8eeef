import Stencil.Proofs.Expr.Guarded

set_option autoImplicit false

namespace Stencil

section Agreement

variable (vars : Fields)

theorem evaluate_of_soft_error (e : Expr) (fault : EvalFault) (failed : soft vars e = .error fault) :
    evaluate vars e = .error fault := by
  cases e with
  | var name =>
      rw [soft] at failed
      cases failed
  | member target field =>
      rw [soft, bind_eq_error] at failed
      rw [evaluate, bind_eq_error]
      rcases failed with start | ⟨found, _, read⟩
      · exact .inl (evaluate_of_soft_error target fault start)
      · cases found with
        | none => cases read
        | some value => cases read
  | index target key =>
      rw [soft, bind_eq_error] at failed
      rw [evaluate, bind_eq_error]
      rcases failed with start | ⟨found, path, read⟩
      · exact .inl (evaluate_of_soft_error target fault start)
      · cases found with
        | none => cases read
        | some value =>
            have asked : evaluate vars key = .error fault := by
              rcases (bind_eq_error _ _ _).mp read with asked | ⟨_, _, read⟩
              · exact asked
              · cases read
            refine .inr ⟨value, (soft_eq_some vars target value).mp path, ?_⟩
            rw [bind_eq_error]
            exact .inl asked
  | _ =>
      rw [Expr.soft_other vars _ rfl, map_eq_error] at failed
      exact failed

/-- Soft evaluation gives a value exactly where evaluation does, and the same one, and it fails only where evaluation
does, in the same way. So `isset(e)` is true exactly if `e` has a value that is not null, and `a ?? b` and
`isset(a) ? a : b` have the same result, a value or a fault. -/
theorem soft_agrees (e : Expr) :
    (∀ v, soft vars e = .ok (some v) ↔ evaluate vars e = .ok v) ∧
    (∀ fault, soft vars e = .error fault → evaluate vars e = .error fault) ∧
    (evaluate vars (.isset e) = .ok (.bool true) ↔ ∃ v, evaluate vars e = .ok v ∧ v ≠ .null) ∧
    ∀ other, evaluate vars (.coalesce e other) = evaluate vars (.choice (.isset e) e other) := by
  have present (v : Value) : v.isNull = false ↔ v ≠ .null := by
    cases v <;> simp [Value.isNull, Value.kind]
  refine ⟨soft_eq_some vars e, evaluate_of_soft_error vars e, ?_, fun other => (evaluate_guarded vars e other).symm⟩
  simp only [isset_eq_true, present]

end Agreement

theorem soft_agrees_name :
    soft [("user", .object [("name", .string "Ada")])] (.member (.var "user") "name") = .ok (some (.string "Ada")) ∧
    evaluate [("user", .object [("name", .string "Ada")])] (.isset (.member (.var "user") "name")) = .ok (.bool true) ∧
    evaluate [] (.coalesce (.member (.var "user") "name") (.var "other")) =
      evaluate [] (.choice (.isset (.member (.var "user") "name")) (.member (.var "user") "name") (.var "other")) := by
  obtain ⟨values, _, set, _⟩ := soft_agrees [("user", .object [("name", .string "Ada")])] (.member (.var "user") "name")
  have value : evaluate [("user", .object [("name", .string "Ada")])] (.member (.var "user") "name")
      = .ok (.string "Ada") := by
    rw [evaluate, evaluate]
    rfl
  exact ⟨(values _).mpr value, set.mpr ⟨_, value, nofun⟩, (soft_agrees [] _).2.2.2 _⟩

-- The parts of an expression that soft evaluation evaluates as usual: what a path starts from, unless that is a
-- variable, and each key that it comes to.
inductive Expr.Asks (vars : Fields) : Expr → Expr → Prop where
  | start {e : Expr} (other : e.isPath = false) : Asks vars e e
  | member {target part : Expr} {field : String} (asked : Asks vars target part) : Asks vars (.member target field) part
  | index {target key part : Expr} (asked : Asks vars target part) : Asks vars (.index target key) part
  | key {target key : Expr} {v : Value} (set : evaluate vars target = .ok v) : Asks vars (.index target key) key

section Faults

variable (vars : Fields)

theorem asked_of_soft_error (e : Expr) (fault : EvalFault) (failed : soft vars e = .error fault) :
    ∃ part, e.Asks vars part ∧ evaluate vars part = .error fault := by
  cases e with
  | var name =>
      rw [soft] at failed
      cases failed
  | member target field =>
      rw [soft, bind_eq_error] at failed
      rcases failed with start | ⟨found, _, read⟩
      · obtain ⟨part, asked, evaluated⟩ := asked_of_soft_error target fault start
        exact ⟨part, .member asked, evaluated⟩
      · cases found with
        | none => cases read
        | some value => cases read
  | index target key =>
      rw [soft, bind_eq_error] at failed
      rcases failed with start | ⟨found, path, read⟩
      · obtain ⟨part, asked, evaluated⟩ := asked_of_soft_error target fault start
        exact ⟨part, .index asked, evaluated⟩
      · cases found with
        | none => cases read
        | some value =>
            rcases (bind_eq_error _ _ _).mp read with evaluated | ⟨_, _, read⟩
            · exact ⟨key, .key ((soft_eq_some vars target value).mp path), evaluated⟩
            · cases read
  | _ => exact ⟨_, .start rfl, evaluate_of_soft_error vars _ fault failed⟩

theorem soft_error_of_asked (e part : Expr) (fault : EvalFault) (asked : e.Asks vars part)
    (failed : evaluate vars part = .error fault) : soft vars e = .error fault := by
  induction asked with
  | start other =>
      rw [Expr.soft_other vars _ other, failed]
      rfl
  | member _ ih =>
      rw [soft, bind_eq_error]
      exact .inl (ih failed)
  | index _ ih =>
      rw [soft, bind_eq_error]
      exact .inl (ih failed)
  | @key target key v set =>
      rw [soft, bind_eq_error]
      refine .inr ⟨some v, (soft_eq_some vars target v).mpr set, ?_⟩
      dsimp only
      rw [failed]
      rfl

theorem soft_eq_error (e : Expr) (fault : EvalFault) :
    soft vars e = .error fault ↔ ∃ part, e.Asks vars part ∧ evaluate vars part = .error fault := by
  constructor
  · exact asked_of_soft_error vars e fault
  · rintro ⟨part, asked, failed⟩
    exact soft_error_of_asked vars e part fault asked failed

variable (x y : Expr) (fault : EvalFault)

theorem isset_eq_error : evaluate vars (.isset x) = .error fault ↔ soft vars x = .error fault := by
  rw [evaluate_isset, map_eq_error]

theorem evaluate_empty : evaluate vars (.empty x) = (soft vars x).map fun found => .bool !found.any Value.isTruthy := by
  rw [evaluate]
  cases soft vars x with
  | error fault => rfl
  | ok found => cases found <;> rfl

theorem empty_eq_error : evaluate vars (.empty x) = .error fault ↔ soft vars x = .error fault := by
  rw [evaluate_empty, map_eq_error]

theorem coalesce_eq_error :
    evaluate vars (.coalesce x y) = .error fault ↔ soft vars x = .error fault ∨
      (soft vars x = .ok none ∨ soft vars x = .ok (some .null)) ∧ evaluate vars y = .error fault := by
  cases path : soft vars x with
  | error e => simp [coalesce_of_fault vars x y e path]
  | ok found =>
      cases found with
      | none => simp [coalesce_of_absent vars x y path]
      | some v =>
          rw [coalesce_of_found vars x y v path]
          cases v <;> simp [Value.isNull, Value.kind]

end Faults

end Stencil
