import Stencil.Render.Execution

set_option autoImplicit false

namespace Stencil.Loop

inductive Form where
  | whilst (test : Expr)
  | each (header : EachHeader) (items : List (Value × Value))
  | counted (header : ForHeader)

def Form.goesOn (form : Form) (vars : Fields) (goes : Bool) : Option (Fields × Form) :=
  if goes then some (vars, form) else none

def Form.next (site : Site) (vars : Fields) : Form → Except ViewError (Option (Fields × Form))
  | .whilst test => (site.test vars test).map ((Form.whilst test).goesOn vars)
  | .each _ [] => .ok none
  | .each header ((key, value) :: rest) => .ok (some (header.bind vars key value, .each header rest))
  | .counted header => (continues site header.condition vars).map ((Form.counted header).goesOn vars)

def Form.after (site : Site) (vars : Fields) : Form → Except ViewError Fields
  | .counted header => Assignment.applyAll site vars header.step
  | _ => .ok vars

section Turns

variable {σ : Type} (site : Site) (limit : Nat) (body : Body σ)

def turns (left : Nat) (form : Form) : Body σ :=
  fun vars run =>
    match form.next site vars with
    | .error error => .error error run
    | .ok none => .ok vars run
    | .ok (some (bound, rest)) =>
        match left with
        | 0 => .error (.loopLimit site limit) run
        | left + 1 =>
            match body bound run with
            | .error error run => .error error run
            | .ok vars run =>
                match form.after site vars with
                | .ok vars => turns left rest vars run
                | .error error => .error error run

theorem whilst_eq (test : Expr) (left : Nat) (vars : Fields) (run : Run σ) :
    whilst site limit test body left vars run = turns site limit body left (.whilst test) vars run := by
  induction left generalizing vars run with
  | zero =>
      rw [whilst, turns, Form.next]
      cases site.test vars test with
      | error e => rfl
      | ok goes =>
          cases goes with
          | false => rfl
          | true => rfl
  | succ left ih =>
      rw [whilst, turns, Form.next]
      cases site.test vars test with
      | error e => rfl
      | ok goes =>
          cases goes with
          | false => rfl
          | true =>
              simp only [Except.map, Form.goesOn, if_true]
              cases body vars run with
              | error e after => rfl
              | ok vars after => exact ih vars after

theorem each_eq (header : EachHeader) (left : Nat) (items : List (Value × Value)) (vars : Fields) (run : Run σ) :
    each site limit header body left items vars run = turns site limit body left (.each header items) vars run := by
  induction left generalizing items vars run with
  | zero =>
      cases items with
      | nil => rfl
      | cons item rest => rfl
  | succ left ih =>
      cases items with
      | nil => rfl
      | cons item rest =>
          obtain ⟨key, value⟩ := item
          rw [each, turns]
          simp only [Form.next]
          cases body (header.bind vars key value) run with
          | error e after => rfl
          | ok vars after => exact ih rest vars after

theorem counted_eq (header : ForHeader) (left : Nat) (vars : Fields) (run : Run σ) :
    counted site limit header body left vars run = turns site limit body left (.counted header) vars run := by
  induction left generalizing vars run with
  | zero =>
      rw [counted, turns, Form.next]
      cases continues site header.condition vars with
      | error e => rfl
      | ok goes =>
          cases goes with
          | false => rfl
          | true => rfl
  | succ left ih =>
      rw [counted, turns, Form.next]
      cases continues site header.condition vars with
      | error e => rfl
      | ok goes =>
          cases goes with
          | false => rfl
          | true =>
              simp only [Except.map, Form.goesOn, if_true]
              cases body vars run with
              | error e after => rfl
              | ok vars after =>
                  simp only [Form.after]
                  cases Assignment.applyAll site vars header.step with
                  | error e => rfl
                  | ok vars => exact ih vars after

end Turns

end Stencil.Loop
