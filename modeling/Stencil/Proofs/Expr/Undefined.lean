import Stencil.Proofs.Expr.Paths

set_option autoImplicit false

namespace Stencil

def Blameless {α : Type} (answer : Except EvalFault α) : Prop := ∀ name, answer ≠ .error (.undefined name)

section Operators

theorem blameless_ok {α : Type} (a : α) : Blameless (Except.ok a : Except EvalFault α) := by
  intro name failed
  cases failed

def EvalFault.isUndefined : EvalFault → Bool
  | .undefined _ => true
  | _ => false

theorem blameless_error {α : Type} (fault : EvalFault) (other : fault.isUndefined = false) :
    Blameless (Except.error fault : Except EvalFault α) := by
  intro name failed
  obtain rfl := Except.error.inj failed
  cases other

theorem blameless_map {α β : Type} (answer : Except EvalFault α) (change : α → β) (blameless : Blameless answer) :
    Blameless (answer.map change) := by
  intro name failed
  exact blameless name ((map_eq_error _ _ _).mp failed)

theorem blameless_finite (x : Float) : Blameless (finite x) := by
  unfold finite
  split
  · exact blameless_ok _
  · exact blameless_error _ rfl

namespace Value

variable (op : BinaryOp) (left right : Value)

theorem blameless_negate : Blameless left.negate := by
  unfold negate
  split
  · split
    · exact blameless_ok _
    · exact blameless_finite _
  · exact blameless_finite _
  · exact blameless_error _ rfl

theorem blameless_calculate (x y : Operand) : Blameless (calculate op x y) := by
  have other : (divisionFault op).isUndefined = false := by
    cases op <;> rfl
  unfold calculate
  split
  · split
    · exact blameless_error _ other
    · split
      · exact blameless_ok _
      · exact blameless_finite _
  · split
    · exact blameless_error _ other
    · exact blameless_finite _

theorem blameless_arithmetic : Blameless (arithmetic op left right) := by
  unfold arithmetic
  split
  · exact blameless_calculate op _ _
  · exact blameless_error _ rfl

theorem blameless_order : Blameless (order left right) := by
  have floats (x y : Float) : Blameless (compareFloats x y) := by
    unfold compareFloats
    split
    · exact blameless_ok _
    · split
      · exact blameless_ok _
      · split
        · exact blameless_ok _
        · exact blameless_error _ rfl
  unfold order
  split
  · exact blameless_ok _
  · split
    · exact blameless_ok _
    · exact floats _ _
    · exact blameless_error _ rfl

theorem blameless_plus : Blameless (plus left right) := by
  unfold plus
  split
  · exact blameless_ok _
  · exact blameless_arithmetic .add left right

theorem blameless_combine : Blameless (left.combine op right) := by
  cases op with
  | eq | notEq | identical | notIdentical | and | or => exact blameless_ok _
  | lt | le | gt | ge => exact blameless_map _ _ (blameless_order left right)
  | add => exact blameless_plus left right
  | sub | mul | div | rem => exact blameless_arithmetic _ left right

theorem blameless_member (field : String) : Blameless (left.member field) := by
  unfold member
  split
  · exact blameless_ok _
  · split
    · exact blameless_ok _
    · exact blameless_error _ rfl
  · exact blameless_ok _
  · exact blameless_error _ rfl

theorem blameless_index : Blameless (left.index right) := by
  unfold index
  split
  · unfold indexNumber
    split
    · exact blameless_ok _
    · exact blameless_error _ rfl
  · exact blameless_ok _
  · exact blameless_ok _
  · exact blameless_error _ rfl

end Value

theorem UnaryOp.blameless_apply (op : UnaryOp) (value : Value) : Blameless (op.apply value) := by
  cases op with
  | not => exact blameless_ok _
  | neg => exact value.blameless_negate

namespace Builtin

theorem blameless_one (function : String) (args : List Value) (use : Value → Except EvalFault Value)
    (blameless : ∀ value, Blameless (use value)) : Blameless (one function args use) := by
  unfold one
  split
  · exact blameless _
  · exact blameless_error _ rfl

theorem blameless_two (function : String) (args : List Value) (use : Value → Value → Except EvalFault Value)
    (blameless : ∀ first second, Blameless (use first second)) : Blameless (two function args use) := by
  unfold two
  split
  · exact blameless _ _
  · exact blameless_error _ rfl

theorem blameless_count (function : String) (value : Value) : Blameless (count function value) := by
  cases value with
  | bool _ | number _ => exact blameless_error _ rfl
  | null | string _ | list _ | object _ => exact blameless_ok _

theorem blameless_join (function : String) (args : List Value) : Blameless (join function args) := by
  have list (value : Value) (separator : String) : Blameless (joinList function value separator) := by
    unfold joinList
    split
    · exact blameless_ok _
    · exact blameless_error _ rfl
  unfold join
  split
  · exact list _ _
  · exact list _ _
  · exact blameless_error _ rfl

theorem blameless_range (start stop : Value) : Blameless (range start stop) := by
  unfold range
  split
  · split
    · exact blameless_error _ rfl
    · exact blameless_ok _
  · exact blameless_error _ rfl

theorem blameless_call (function : String) (args : List Value) : Blameless (call function args) := by
  have text (change : String → String) : Blameless (onText function args change) :=
    blameless_one function args _ fun _ => blameless_ok _
  unfold call
  dsimp only
  repeat' split
  · exact text _
  · exact blameless_one function args _ (blameless_count function)
  · exact text _
  · exact text _
  · exact text _
  · exact blameless_join function args
  · exact blameless_one function args _ fun _ => blameless_ok _
  · exact blameless_two function args _ blameless_range
  · exact blameless_two function args _ fun _ _ => blameless_ok _
  · exact blameless_error _ rfl

end Builtin

end Operators

section Names

section

variable {vars : Fields} {name : String} {first second : List String}

theorem missing_left (missing : name ∈ first ∧ vars.get? name = none) : name ∈ first ++ second ∧ vars.get? name = none := by
  obtain ⟨occurs, absent⟩ := missing
  exact ⟨List.mem_append_left second occurs, absent⟩

theorem missing_right (missing : name ∈ second ∧ vars.get? name = none) :
    name ∈ first ++ second ∧ vars.get? name = none := by
  obtain ⟨occurs, absent⟩ := missing
  exact ⟨List.mem_append_right first occurs, absent⟩

end

variable (vars : Fields) (name : String)

theorem fault_of_binary (op : BinaryOp) (left right : Expr)
    (failed : evaluate vars (.binary op left right) = .error (.undefined name)) :
    evaluate vars left = .error (.undefined name) ∨ evaluate vars right = .error (.undefined name) := by
  have second (change : Value → Value)
      (failed : (do return change (← evaluate vars right)) = Except.error (EvalFault.undefined name)) :
      evaluate vars right = .error (.undefined name) := by
    rcases (bind_eq_error _ _ _).mp failed with failed | ⟨_, _, failed⟩
    · exact failed
    · cases failed
  cases op with
  | and =>
      rw [evaluate] at failed
      rcases (bind_eq_error _ _ _).mp failed with first | ⟨a, _, failed⟩
      · exact .inl first
      · by_cases true : a.isTruthy = true
        · rw [if_pos true] at failed
          exact .inr (second _ failed)
        · rw [if_neg true] at failed
          cases failed
  | or =>
      rw [evaluate] at failed
      rcases (bind_eq_error _ _ _).mp failed with first | ⟨a, _, failed⟩
      · exact .inl first
      · by_cases true : a.isTruthy = true
        · rw [if_pos true] at failed
          cases failed
        · rw [if_neg true] at failed
          exact .inr (second _ failed)
  | _ =>
      simp only [evaluate] at failed
      rcases (bind_eq_error _ _ _).mp failed with first | ⟨a, _, failed⟩
      · exact .inl first
      · rcases (bind_eq_error _ _ _).mp failed with second | ⟨b, _, failed⟩
        · exact .inr second
        · exact absurd failed (a.blameless_combine _ b name)

mutual
/-- Only a variable that occurs and is not defined is reported as undefined. -/
theorem undefined_of_evaluate (e : Expr) (failed : evaluate vars e = .error (.undefined name)) :
    name ∈ e.names ∧ vars.get? name = none := by
  cases e with
  | literal value =>
      rw [evaluate] at failed
      cases failed
  | var other =>
      rw [evaluate] at failed
      cases found : vars.get? other with
      | some value =>
          rw [found] at failed
          cases failed
      | none =>
          rw [found] at failed
          obtain rfl := EvalFault.undefined.inj (Except.error.inj failed)
          exact ⟨List.mem_singleton_self other, found⟩
  | array items =>
      rw [evaluate, map_eq_error] at failed
      exact undefined_of_all items failed
  | call function args =>
      rw [evaluate] at failed
      rcases (bind_eq_error _ _ _).mp failed with failed | ⟨values, _, failed⟩
      · exact undefined_of_all args failed
      · exact absurd failed (Builtin.blameless_call function values name)
  | member target field =>
      rw [evaluate] at failed
      rcases (bind_eq_error _ _ _).mp failed with failed | ⟨value, _, failed⟩
      · exact undefined_of_evaluate target failed
      · exact absurd failed (value.blameless_member field name)
  | index target key =>
      rw [evaluate] at failed
      rcases (bind_eq_error _ _ _).mp failed with failed | ⟨value, _, failed⟩
      · exact missing_left (undefined_of_evaluate target failed)
      · rcases (bind_eq_error _ _ _).mp failed with failed | ⟨place, _, failed⟩
        · exact missing_right (undefined_of_evaluate key failed)
        · exact absurd failed (value.blameless_index place name)
  | unary op operand =>
      rw [evaluate] at failed
      rcases (bind_eq_error _ _ _).mp failed with failed | ⟨value, _, failed⟩
      · exact undefined_of_evaluate operand failed
      · exact absurd failed (op.blameless_apply value name)
  | binary op left right =>
      rcases fault_of_binary vars name op left right failed with failed | failed
      · exact missing_left (undefined_of_evaluate left failed)
      · exact missing_right (undefined_of_evaluate right failed)
  | coalesce left right =>
      rcases (coalesce_eq_error vars left right _).mp failed with failed | ⟨_, failed⟩
      · exact missing_left (undefined_of_evaluate left (evaluate_of_soft_error vars left _ failed))
      · exact missing_right (undefined_of_evaluate right failed)
  | choice test positive negative =>
      rw [evaluate] at failed
      rcases (bind_eq_error _ _ _).mp failed with failed | ⟨value, _, failed⟩
      · exact missing_left (undefined_of_evaluate test failed)
      · by_cases true : value.isTruthy = true
        · rw [if_pos true] at failed
          exact missing_right (missing_left (undefined_of_evaluate positive failed))
        · rw [if_neg true] at failed
          exact missing_right (missing_right (undefined_of_evaluate negative failed))
  | elvis test otherwise =>
      rw [evaluate] at failed
      rcases (bind_eq_error _ _ _).mp failed with failed | ⟨value, _, failed⟩
      · exact missing_left (undefined_of_evaluate test failed)
      · by_cases true : value.isTruthy = true
        · rw [if_pos true] at failed
          cases failed
        · rw [if_neg true] at failed
          exact missing_right (undefined_of_evaluate otherwise failed)
  | isset target =>
      rw [isset_eq_error] at failed
      exact undefined_of_evaluate target (evaluate_of_soft_error vars target _ failed)
  | empty target =>
      rw [empty_eq_error] at failed
      exact undefined_of_evaluate target (evaluate_of_soft_error vars target _ failed)

theorem undefined_of_all (items : List Expr) (failed : evaluateAll vars items = .error (.undefined name)) :
    name ∈ Expr.allNames items ∧ vars.get? name = none := by
  match items with
  | [] =>
      rw [evaluateAll] at failed
      cases failed
  | e :: rest =>
      rw [evaluateAll] at failed
      rcases (bind_eq_error _ _ _).mp failed with failed | ⟨_, _, failed⟩
      · exact missing_left (undefined_of_evaluate e failed)
      · rcases (bind_eq_error _ _ _).mp failed with failed | ⟨_, _, failed⟩
        · exact missing_right (undefined_of_all rest failed)
        · cases failed
end

end Names

def Expr.required : Expr → List String
  | .var _ => []
  | .member target _ => target.required
  | .index target key => target.required ++ key.names
  | e => e.names

theorem required_of_asked (vars : Fields) (e part : Expr) (asked : e.Asks vars part) (name : String)
    (occurs : name ∈ part.names) : name ∈ e.required := by
  induction asked with
  | @start e other =>
      cases e with
      | var | member | index => cases other
      | _ => exact occurs
  | member _ ih => exact ih occurs
  | index _ ih => exact List.mem_append_left _ (ih occurs)
  | key _ => exact List.mem_append_right _ occurs

/-- `isset(x)`, `empty(x)` and the left side of `x ?? y` fail exactly where soft evaluation fails, and this is where a
part fails that it asks for: what a path starts from, unless that is a variable, or one of its keys. So the variable
that a path starts from is never reported as undefined, and of the others only one that occurs in such a part and is
not defined. -/
theorem faults_of_special (vars : Fields) (x : Expr) :
    (∀ fault, evaluate vars (.isset x) = .error fault ↔ soft vars x = .error fault) ∧
    (∀ fault, evaluate vars (.empty x) = .error fault ↔ soft vars x = .error fault) ∧
    (∀ y fault, evaluate vars (.coalesce x y) = .error fault ↔ soft vars x = .error fault ∨
      (soft vars x = .ok none ∨ soft vars x = .ok (some .null)) ∧ evaluate vars y = .error fault) ∧
    (∀ fault, soft vars x = .error fault ↔ ∃ part, x.Asks vars part ∧ evaluate vars part = .error fault) ∧
    ∀ name, soft vars x = .error (.undefined name) → name ∈ x.required ∧ vars.get? name = none := by
  refine ⟨isset_eq_error vars x, empty_eq_error vars x, coalesce_eq_error vars x, soft_eq_error vars x, ?_⟩
  intro name failed
  obtain ⟨part, asked, evaluated⟩ := (soft_eq_error vars x _).mp failed
  obtain ⟨occurs, absent⟩ := undefined_of_evaluate vars name part evaluated
  exact ⟨required_of_asked vars x part asked name occurs, absent⟩

def keyed : Expr := .index (.member (.var "list") "items") (.var "at")

theorem faults_of_keyed :
    (∀ name, evaluate [("at", .null)] (.isset keyed) ≠ .error (.undefined name)) ∧
    ∀ name, evaluate [("at", .null)] (.empty keyed) ≠ .error (.undefined name) := by
  obtain ⟨isset, empty, _, _, blamed⟩ := faults_of_special [("at", .null)] keyed
  have never (name : String) : soft [("at", .null)] keyed ≠ .error (.undefined name) := by
    intro failed
    obtain ⟨occurs, absent⟩ := blamed name failed
    obtain rfl := List.mem_singleton.mp occurs
    cases absent
  exact ⟨fun name failed => never name ((isset _).mp failed), fun name failed => never name ((empty _).mp failed)⟩

/-- An undefined key of a path that is set is reported, and so is an undefined operand. -/
theorem undefined_in_isset :
    evaluate [("a", .list [])] (.isset (.index (.var "a") (.var "missing"))) = .error (.undefined "missing") ∧
    evaluate [("a", .list [])] (.empty (.index (.var "a") (.var "missing"))) = .error (.undefined "missing") ∧
    evaluate [] (.isset (.unary .not (.var "missing"))) = .error (.undefined "missing") := by
  have key : soft [("a", .list [])] (.index (.var "a") (.var "missing")) = .error (.undefined "missing") := by
    refine soft_error_of_asked _ _ (.var "missing") _ (.key (v := .list []) ?_) ?_
    · rw [evaluate]
      rfl
    · rw [evaluate]
      rfl
  have operand : soft [] (.unary .not (.var "missing")) = .error (.undefined "missing") := by
    refine soft_error_of_asked _ _ _ _ (.start rfl) ?_
    rw [evaluate, evaluate]
    rfl
  rw [isset_eq_error, empty_eq_error, isset_eq_error]
  exact ⟨key, key, operand⟩

end Stencil
