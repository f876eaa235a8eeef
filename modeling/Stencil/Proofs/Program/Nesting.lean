import Stencil.Proofs.Program.Marks

set_option autoImplicit false

namespace Stencil

inductive Part where
  | body
  | branches (kind : ConditionalKind)

-- The marks of a part in which so many blocks may still be opened inside each other.
inductive Nested : Part → Nat → List Mark → Prop where
  | nil {room : Nat} : Nested .body room []
  | leaf {room : Nat} {rest : List Mark} (leaf : Leaf) (more : Nested .body room rest) :
      Nested .body room (.leaf leaf :: rest)
  | conditional {room : Nat} {inner rest : List Mark} (kind : ConditionalKind) (test : Expr)
      (branches : Nested (.branches kind) room inner) (more : Nested .body (room + 1) rest) :
      Nested .body (room + 1) (.openConditional kind test :: (inner ++ rest))
  | loop {room : Nat} {inner rest : List Mark} (head : LoopHead) (body : Nested .body room inner)
      (more : Nested .body (room + 1) rest) :
      Nested .body (room + 1) (.openLoop head :: (inner ++ .closeLoop head.kind :: rest))
  | close {kind : ConditionalKind} {room : Nat} {inner : List Mark} (body : Nested .body room inner) :
      Nested (.branches kind) room (inner ++ [.closeConditional kind])
  | last {kind : ConditionalKind} {room : Nat} {inner otherwise : List Mark} (body : Nested .body room inner)
      (final : Nested .body room otherwise) :
      Nested (.branches kind) room (inner ++ .lastBranch :: (otherwise ++ [.closeConditional kind]))
  | next {room : Nat} {inner others : List Mark} (test : Expr) (body : Nested .body room inner)
      (branches : Nested (.branches .affirmed) room others) :
      Nested (.branches .affirmed) room (inner ++ .nextBranch test :: others)

inductive Bracket where
  | conditional (kind : ConditionalKind) (more : Bool)
  | loop (kind : LoopKind)

def pushBracket (bracket : Bracket) (brackets : List Bracket) : Option (List Bracket) :=
  if greatestBlockDepth ≤ brackets.length then none else some (bracket :: brackets)

def Mark.step (mark : Mark) (brackets : List Bracket) : Option (List Bracket) :=
  match mark with
  | .leaf _ => some brackets
  | .openConditional kind _ => pushBracket (.conditional kind true) brackets
  | .nextBranch _ =>
      match brackets with
      | .conditional .affirmed true :: _ => some brackets
      | _ => none
  | .lastBranch =>
      match brackets with
      | .conditional kind true :: outer => some (.conditional kind false :: outer)
      | _ => none
  | .closeConditional kind =>
      match brackets with
      | .conditional opened _ :: outer => if opened = kind then some outer else none
      | _ => none
  | .openLoop head => pushBracket (.loop head.kind) brackets
  | .closeLoop kind =>
      match brackets with
      | .loop opened :: outer => if opened = kind then some outer else none
      | _ => none

def run : List Mark → List Bracket → Option (List Bracket)
  | [], brackets => some brackets
  | mark :: rest, brackets => (mark.step brackets).bind (run rest)

theorem run_append (first second : List Mark) (brackets : List Bracket) :
    run (first ++ second) brackets = (run first brackets).bind (run second) := by
  induction first generalizing brackets with
  | nil => rfl
  | cons mark rest ih =>
      rw [List.cons_append, run, run]
      cases mark.step brackets with
      | none => rfl
      | some next => exact ih next

theorem pushBracket_room (bracket : Bracket) (brackets : List Bracket) (room : Nat)
    (left : brackets.length + (room + 1) = greatestBlockDepth) : pushBracket bracket brackets = some (bracket :: brackets) :=
  if_neg (by omega)

def Part.opened (part : Part) (brackets : List Bracket) : List Bracket :=
  match part with
  | .body => brackets
  | .branches kind => .conditional kind true :: brackets

theorem run_nested (part : Part) (room : Nat) (marks : List Mark) (nested : Nested part room marks)
    (brackets : List Bracket) (left : (part.opened brackets).length + room = greatestBlockDepth) :
    run marks (part.opened brackets) = some brackets := by
  induction nested generalizing brackets with
  | nil => rfl
  | leaf leaf more rest => exact rest brackets left
  | @conditional room inner rest kind test branches more first second =>
      have inside : ((Part.branches kind).opened brackets).length + room = greatestBlockDepth := by
        simp only [Part.opened, List.length_cons] at left ⊢
        omega
      have started : (Mark.openConditional kind test).step brackets = some ((Part.branches kind).opened brackets) :=
        pushBracket_room _ brackets room left
      rw [Part.opened, run, started, Option.bind_some, run_append, first brackets inside, Option.bind_some]
      exact second brackets left
  | @loop room inner rest head body more first second =>
      have inside : (Part.body.opened (.loop head.kind :: brackets)).length + room = greatestBlockDepth := by
        simp only [Part.opened, List.length_cons] at left ⊢
        omega
      have started : (Mark.openLoop head).step brackets = some (Part.body.opened (.loop head.kind :: brackets)) :=
        pushBracket_room _ brackets room left
      rw [Part.opened, run, started, Option.bind_some, run_append, first _ inside, Option.bind_some, run, Mark.step,
        if_pos rfl, Option.bind_some]
      exact second brackets left
  | @close kind room inner body first =>
      have before : run inner (.conditional kind true :: brackets) = some (.conditional kind true :: brackets) :=
        first _ left
      rw [Part.opened, run_append, before, Option.bind_some, run, Mark.step, if_pos rfl]
      rfl
  | @last kind room inner otherwise body final first second =>
      have before : run inner (.conditional kind true :: brackets) = some (.conditional kind true :: brackets) :=
        first _ left
      have behind : run otherwise (.conditional kind false :: brackets) = some (.conditional kind false :: brackets) :=
        second _ left
      rw [Part.opened, run_append, before, Option.bind_some, run, Mark.step, Option.bind_some, run_append, behind,
        Option.bind_some, run, Mark.step, if_pos rfl]
      rfl
  | @next room inner others test body branches first second =>
      have before : run inner (.conditional .affirmed true :: brackets) = some (.conditional .affirmed true :: brackets) :=
        first _ left
      rw [Part.opened, run_append, before, Option.bind_some, run, Mark.step, Option.bind_some]
      exact second brackets left

inductive Completes : List Bracket → List Mark → Prop where
  | done {body : List Mark} (inner : Nested .body greatestBlockDepth body) : Completes [] body
  | loop {outer : List Bracket} {kind : LoopKind} {room : Nat} {body rest : List Mark}
      (left : outer.length + 1 + room = greatestBlockDepth) (inner : Nested .body room body) (others : Completes outer rest) :
      Completes (.loop kind :: outer) (body ++ .closeLoop kind :: rest)
  | branches {outer : List Bracket} {kind : ConditionalKind} {room : Nat} {inner rest : List Mark}
      (left : outer.length + 1 + room = greatestBlockDepth) (branches : Nested (.branches kind) room inner)
      (others : Completes outer rest) : Completes (.conditional kind true :: outer) (inner ++ rest)
  | last {outer : List Bracket} {kind : ConditionalKind} {room : Nat} {body rest : List Mark}
      (left : outer.length + 1 + room = greatestBlockDepth) (inner : Nested .body room body) (others : Completes outer rest) :
      Completes (.conditional kind false :: outer) (body ++ .closeConditional kind :: rest)

theorem branches_prepend {kind : ConditionalKind} {room : Nat} {block marks : List Mark}
    (fronts : ∀ body, Nested .body room body → Nested .body room (block ++ body)) (branches : Nested (.branches kind) room marks) :
    Nested (.branches kind) room (block ++ marks) := by
  cases branches with
  | close inner =>
      rw [← List.append_assoc]
      exact .close (fronts _ inner)
  | last inner final =>
      rw [← List.append_assoc]
      exact .last (fronts _ inner) final
  | next test inner more =>
      rw [← List.append_assoc]
      exact .next test (fronts _ inner) more

theorem completes_prepend {brackets : List Bracket} {room : Nat} {block marks : List Mark}
    (left : brackets.length + room = greatestBlockDepth)
    (fronts : ∀ body, Nested .body room body → Nested .body room (block ++ body)) (completes : Completes brackets marks) :
    Completes brackets (block ++ marks) := by
  cases completes with
  | done inner =>
      obtain rfl : room = greatestBlockDepth := by simpa using left
      exact .done (fronts _ inner)
  | @loop outer kind room' body rest within inner others =>
      rw [List.length_cons] at left
      obtain rfl : room = room' := by omega
      rw [← List.append_assoc]
      exact .loop within (fronts _ inner) others
  | @branches outer kind room' inner rest within parts others =>
      rw [List.length_cons] at left
      obtain rfl : room = room' := by omega
      rw [← List.append_assoc]
      exact .branches within (branches_prepend fronts parts) others
  | @last outer kind room' body rest within inner others =>
      rw [List.length_cons] at left
      obtain rfl : room = room' := by omega
      rw [← List.append_assoc]
      exact .last within (fronts _ inner) others

theorem pushBracket_eq_some {bracket : Bracket} {brackets next : List Bracket} (opened : pushBracket bracket brackets = some next) :
    brackets.length < greatestBlockDepth ∧ next = bracket :: brackets := by
  rw [pushBracket] at opened
  split at opened
  · cases opened
  · exact ⟨by omega, (Option.some.inj opened).symm⟩

theorem nextBranch_eq_some {test : Expr} {brackets next : List Bracket}
    (step : (Mark.nextBranch test).step brackets = some next) :
    next = brackets ∧ ∃ outer, brackets = .conditional .affirmed true :: outer := by
  unfold Mark.step at step
  dsimp only at step
  split at step
  · exact ⟨(Option.some.inj step).symm, _, rfl⟩
  · cases step

theorem lastBranch_eq_some {brackets next : List Bracket} (step : Mark.lastBranch.step brackets = some next) :
    ∃ kind outer, brackets = .conditional kind true :: outer ∧ next = .conditional kind false :: outer := by
  unfold Mark.step at step
  dsimp only at step
  split at step
  · exact ⟨_, _, rfl, (Option.some.inj step).symm⟩
  · cases step

theorem closeConditional_eq_some {kind : ConditionalKind} {brackets next : List Bracket}
    (step : (Mark.closeConditional kind).step brackets = some next) :
    ∃ more, brackets = .conditional kind more :: next := by
  unfold Mark.step at step
  dsimp only at step
  split at step
  · rename_i opened more outer
    by_cases same : opened = kind
    · rw [if_pos same] at step
      obtain rfl := Option.some.inj step
      exact ⟨more, by rw [same]⟩
    · rw [if_neg same] at step
      cases step
  · cases step

theorem closeLoop_eq_some {kind : LoopKind} {brackets next : List Bracket}
    (step : (Mark.closeLoop kind).step brackets = some next) : brackets = .loop kind :: next := by
  unfold Mark.step at step
  dsimp only at step
  split at step
  · rename_i opened outer
    by_cases same : opened = kind
    · rw [if_pos same] at step
      obtain rfl := Option.some.inj step
      rw [same]
    · rw [if_neg same] at step
      cases step
  · cases step

theorem completes_of_run (marks : List Mark) (brackets : List Bracket) (within : brackets.length ≤ greatestBlockDepth)
    (ended : run marks brackets = some []) : Completes brackets marks := by
  induction marks generalizing brackets with
  | nil =>
      obtain rfl := Option.some.inj ended
      exact .done .nil
  | cons mark rest ih =>
      obtain ⟨next, step, further⟩ := Option.bind_eq_some_iff.mp ended
      obtain ⟨room, left⟩ := Nat.exists_eq_add_of_le within
      cases mark with
      | leaf leaf =>
          obtain rfl := Option.some.inj step
          have fronts : ∀ body, Nested .body room body → Nested .body room ([.leaf leaf] ++ body) :=
            fun body nested => .leaf leaf nested
          exact completes_prepend left.symm fronts (ih brackets within further)
      | openConditional kind test =>
          obtain ⟨below, rfl⟩ := pushBracket_eq_some step
          cases ih (.conditional kind true :: brackets) below further with
          | @branches _ _ inside inner rest left' parts others =>
              have fronts : ∀ body, Nested .body (inside + 1) body →
                  Nested .body (inside + 1) ((.openConditional kind test :: inner) ++ body) :=
                fun body nested => .conditional kind test parts nested
              exact completes_prepend (by omega) fronts others
      | nextBranch test =>
          obtain ⟨rfl, outer, rfl⟩ := nextBranch_eq_some step
          cases ih _ within further with
          | branches left' parts others => exact .branches left' (.next test .nil parts) others
      | lastBranch =>
          obtain ⟨kind, outer, rfl, rfl⟩ := lastBranch_eq_some step
          cases ih (.conditional kind false :: outer) within further with
          | @last _ _ inside body rest left' inner others =>
              have parts : Nested (.branches kind) inside ([] ++ .lastBranch :: (body ++ [.closeConditional kind])) :=
                .last .nil inner
              have whole := Completes.branches left' parts others
              simpa using whole
      | closeConditional kind =>
          obtain ⟨more, rfl⟩ := closeConditional_eq_some step
          rw [List.length_cons] at left within
          have others := ih next (by omega) further
          cases more with
          | true => exact .branches left.symm (.close .nil) others
          | false => exact .last left.symm .nil others
      | openLoop head =>
          obtain ⟨below, rfl⟩ := pushBracket_eq_some step
          cases ih (.loop head.kind :: brackets) below further with
          | @loop _ _ inside body rest left' inner others =>
              have fronts : ∀ more, Nested .body (inside + 1) more →
                  Nested .body (inside + 1) ((.openLoop head :: (body ++ [.closeLoop head.kind])) ++ more) := by
                intro more nested
                rw [List.cons_append, List.append_assoc]
                exact .loop head inner nested
              have whole := completes_prepend (by omega) fronts others
              simpa using whole
      | closeLoop kind =>
          obtain rfl := closeLoop_eq_some step
          rw [List.length_cons] at left within
          exact .loop left.symm .nil (ih next (by omega) further)

theorem nested_iff_run (marks : List Mark) : Nested .body greatestBlockDepth marks ↔ run marks [] = some [] := by
  constructor
  · intro nested
    exact run_nested .body _ marks nested [] (Nat.zero_add _)
  · intro ended
    cases completes_of_run marks [] (Nat.zero_le _) ended with
    | done inner => exact inner

end Stencil
