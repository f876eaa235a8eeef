import Stencil.Proofs.Render.Captures
import Stencil.Proofs.Render.Rounds

set_option autoImplicit false

namespace Stencil

structure Work where
  nodes : Nat
  rounds : Nat
  depth : Nat

namespace Work

def one : Work := ⟨1, 0, 0⟩

def join (first second : Work) : Work :=
  ⟨first.nodes + second.nodes, max first.rounds second.rounds, max first.depth second.depth⟩

structure Within (work : Work) (limits : Limits) : Prop where
  rounds : work.rounds ≤ limits.loopIterations
  depth : work.depth ≤ limits.includeDepth

theorem within_one (limits : Limits) : one.Within limits := ⟨Nat.zero_le _, Nat.zero_le _⟩

theorem within_rounds (limits : Limits) (count : Nat) (below : count ≤ limits.loopIterations) :
    Within ⟨0, count, 0⟩ limits := ⟨below, Nat.zero_le _⟩

theorem within_join {limits : Limits} {first second : Work} (left : first.Within limits)
    (right : second.Within limits) : (first.join second).Within limits :=
  ⟨Nat.max_le.mpr ⟨left.rounds, right.rounds⟩, Nat.max_le.mpr ⟨left.depth, right.depth⟩⟩

end Work

section Choices

variable (site : Site) (vars : Fields)

def choose : List (Expr × List Node) → Option (List Node) → Except ViewError (List Node)
  | [], otherwise => .ok (otherwise.getD [])
  | (test, body) :: rest, otherwise =>
      match site.test vars test with
      | .ok true => .ok body
      | .ok false => choose rest otherwise
      | .error error => .error error

theorem choose_smaller (branches : List (Expr × List Node)) (otherwise : Option (List Node)) (line : Nat)
    (nodes : List Node) (chosen : choose site vars branches otherwise = .ok nodes) :
    sizeOf nodes < sizeOf (Node.conditional branches otherwise line) := by
  induction branches with
  | nil =>
      obtain rfl := Except.ok.inj chosen
      cases otherwise with
      | none =>
          simp only [Option.getD_none, List.nil.sizeOf_spec, Node.conditional.sizeOf_spec]
          omega
      | some body =>
          simp only [Option.getD_some, Option.some.sizeOf_spec, Node.conditional.sizeOf_spec]
          omega
  | cons branch rest ih =>
      obtain ⟨test, body⟩ := branch
      simp only [Node.conditional.sizeOf_spec, List.cons.sizeOf_spec, Prod.mk.sizeOf_spec] at ih ⊢
      rw [choose] at chosen
      split at chosen
      · obtain rfl := Except.ok.inj chosen
        omega
      · have smaller := ih chosen
        omega
      · cases chosen

theorem runBranches_eq {σ : Type} (scope : Scope σ) (branches : List (Expr × List Node))
    (otherwise : Option (List Node)) (run : Run σ) :
    scope.runBranches site branches (scope.runOtherwise otherwise) vars run
      = match choose site vars branches otherwise with
        | .ok nodes => scope.runNodes nodes vars run
        | .error error => .error error run := by
  induction branches with
  | nil =>
      rw [Scope.runBranches, choose]
      cases otherwise with
      | none =>
          rw [Scope.runOtherwise]
          rfl
      | some body =>
          rw [Scope.runOtherwise]
          rfl
  | cons branch rest ih =>
      obtain ⟨test, body⟩ := branch
      rw [Scope.runBranches, choose]
      dsimp only
      cases site.test vars test with
      | error e => rfl
      | ok goes =>
          cases goes with
          | true => rfl
          | false => exact ih

end Choices

namespace Loop

inductive Turn where
  | ends (answer : Except ViewError Fields)
  | round (vars : Fields) (rest : Form)

def Form.turn (site : Site) (limit count : Nat) (vars : Fields) (form : Form) : Turn :=
  match form.next site vars with
  | .error error => .ends (.error error)
  | .ok none => .ends (.ok vars)
  | .ok (some (bound, rest)) => if limit ≤ count then .ends (.error (.loopLimit site limit)) else .round bound rest

variable {σ : Type} {site : Site} {limit count : Nat} {vars : Fields} {form : Form}

theorem turns_ends (body : Body σ) (run : Run σ) (answer : Except ViewError Fields)
    (ended : form.turn site limit count vars = .ends answer) :
    turns site limit body (limit - count) form vars run = Run.lift answer run := by
  rw [Form.turn] at ended
  rw [turns]
  cases asked : form.next site vars with
  | error e =>
      rw [asked] at ended
      obtain rfl := Turn.ends.inj ended
      rfl
  | ok next =>
      cases next with
      | none =>
          rw [asked] at ended
          obtain rfl := Turn.ends.inj ended
          rfl
      | some next =>
          simp only [asked] at ended
          by_cases full : limit ≤ count
          · rw [if_pos full] at ended
            obtain rfl := Turn.ends.inj ended
            rw [Nat.sub_eq_zero_of_le full]
            rfl
          · rw [if_neg full] at ended
            cases ended

theorem turns_round (body : Body σ) (run : Run σ) (bound : Fields) (rest : Form)
    (more : form.turn site limit count vars = .round bound rest) :
    count < limit ∧ turns site limit body (limit - count) form vars run
      = match body bound run with
        | .error error run => .error error run
        | .ok vars run =>
            match form.after site vars with
            | .ok vars => turns site limit body (limit - (count + 1)) rest vars run
            | .error error => .error error run := by
  rw [Form.turn] at more
  split at more
  · cases more
  · cases more
  · rename_i bound' rest' asked
    by_cases full : limit ≤ count
    · rw [if_pos full] at more
      cases more
    · rw [if_neg full] at more
      obtain ⟨rfl, rfl⟩ := Turn.round.inj more
      refine ⟨by omega, ?_⟩
      have left : limit - count = (limit - (count + 1)) + 1 := by omega
      rw [left, turns]
      cases ran : body bound' run with
      | error e after => simp only [asked, ran]
      | ok changed after =>
          cases stepped : form.after site changed with
          | error e => simp only [asked, ran, stepped]
          | ok ready => simp only [asked, ran, stepped]

end Loop

inductive Task where
  | node (node : Node)
  | nodes (nodes : List Node)
  | rounds (site : Site) (form : Loop.Form) (body : List Node) (count : Nat)

namespace Task

def run {σ : Type} (scope : Scope σ) : Task → Body σ
  | .node single => scope.runNode single
  | .nodes several => scope.runNodes several
  | .rounds site form body count =>
      Loop.turns site scope.limits.loopIterations (scope.runNodes body) (scope.limits.loopIterations - count) form

def InTime (limits : Limits) : Task → Prop
  | .rounds _ _ _ count => count ≤ limits.loopIterations
  | _ => True

noncomputable def size : Task → Nat
  | .node single => sizeOf single
  | .nodes several => sizeOf several
  | .rounds _ _ body _ => sizeOf body

def roundsLeft (limits : Limits) : Task → Nat
  | .rounds _ _ _ count => limits.loopIterations - count + 1
  | _ => 0

end Task

inductive Start (σ : Type) where
  | ends (result : EStateM.Result ViewError (Run σ) Fields)
  | body (nodes : List Node)
  | loop (site : Site) (form : Loop.Form) (vars : Fields) (body : List Node)
  | template (name : String) (program : Program) (cache : Cache σ)

namespace Renderer

variable {σ : Type} [Store σ] (renderer : Renderer)

-- The nodes that are left to the scope insert no template.
def start (template : String) (floor : Nat) (vars : Fields) (run : Run σ) : Node → Start σ
  | .conditional branches otherwise line =>
      match choose ⟨template, line⟩ vars branches otherwise with
      | .ok nodes => .body nodes
      | .error error => .ends (.error error run)
  | .each header body line =>
      match Site.items ⟨template, line⟩ vars header.source with
      | .ok items => .loop ⟨template, line⟩ (.each header items) vars body
      | .error error => .ends (.error error run)
  | .counted header body line =>
      match Assignment.applyAll ⟨template, line⟩ vars header.init with
      | .ok vars => .loop ⟨template, line⟩ (.counted header) vars body
      | .error error => .ends (.error error run)
  | .whilst test body line => .loop ⟨template, line⟩ (.whilst test) vars body
  | .insert name line =>
      match Site.name ⟨template, line⟩ vars name with
      | .error error => .ends (.error error run)
      | .ok name =>
          if renderer.limits.includeDepth ≤ run.session.includeDepth then
            .ends (.error (.tooDeep .inclusion renderer.limits.includeDepth name) run)
          else
            match Cache.ensureFresh renderer.compiler name run.cache with
            | .ok program cache => .template name program cache
            | .error error cache => .ends (.error error { run with cache })
  | node => .ends (Scope.runNode ⟨template, floor, renderer.limits, renderer.insert 0⟩ node vars run)

def leave (before : Session) (name : String) (vars : Fields) :
    EStateM.Result ViewError (Run σ) Fields → EStateM.Result ViewError (Run σ) Fields
  | .error error after => .error error (back after)
  | .ok _ after =>
      match Session.checkClosed name before.height after.session with
      | .error error => .error error (back after)
      | .ok _ => .ok vars (back after)
where
  back (after : Run σ) : Run σ := { after with session := after.session.shallower before.contentClaimed }

-- The rules know nothing of how much is left; they stop where a count has reached its limit.
inductive Executes :
    String → Nat → Task → Fields → Run σ → Work → EStateM.Result ViewError (Run σ) Fields → Prop where
  | ends {template : String} {floor : Nat} {node : Node} {vars : Fields} {run : Run σ}
      {result : EStateM.Result ViewError (Run σ) Fields}
      (started : renderer.start template floor vars run node = .ends result) :
      Executes template floor (.node node) vars run .one result
  | body {template : String} {floor : Nat} {node : Node} {vars : Fields} {run : Run σ} {nodes : List Node} {work : Work}
      {result : EStateM.Result ViewError (Run σ) Fields}
      (started : renderer.start template floor vars run node = .body nodes)
      (ran : Executes template floor (.nodes nodes) vars run work result) :
      Executes template floor (.node node) vars run (Work.one.join work) result
  | loop {template : String} {floor : Nat} {node : Node} {vars bound : Fields} {run : Run σ} {site : Site}
      {form : Loop.Form} {body : List Node} {work : Work} {result : EStateM.Result ViewError (Run σ) Fields}
      (started : renderer.start template floor vars run node = .loop site form bound body)
      (ran : Executes template floor (.rounds site form body 0) bound run work result) :
      Executes template floor (.node node) vars run (Work.one.join work) result
  | template {template : String} {floor : Nat} {node : Node} {vars : Fields} {run : Run σ} {name : String}
      {program : Program} {cache : Cache σ} {work : Work} {result : EStateM.Result ViewError (Run σ) Fields}
      (started : renderer.start template floor vars run node = .template name program cache)
      (ran : Executes name run.session.height (.nodes program.nodes) vars ⟨cache, run.session.deeper⟩ work result) :
      Executes template floor (.node node) vars run (Work.join ⟨1, 0, run.session.includeDepth + 1⟩ work)
        (leave run.session name vars result)
  | nil {template : String} {floor : Nat} {vars : Fields} {run : Run σ} :
      Executes template floor (.nodes []) vars run ⟨0, 0, 0⟩ (.ok vars run)
  | failed {template : String} {floor : Nat} {node : Node} {rest : List Node} {vars : Fields} {run after : Run σ}
      {work : Work} {e : ViewError} (first : Executes template floor (.node node) vars run work (.error e after)) :
      Executes template floor (.nodes (node :: rest)) vars run work (.error e after)
  | next {template : String} {floor : Nat} {node : Node} {rest : List Node} {vars changed : Fields} {run after : Run σ}
      {work more : Work} {result : EStateM.Result ViewError (Run σ) Fields}
      (first : Executes template floor (.node node) vars run work (.ok changed after))
      (others : Executes template floor (.nodes rest) changed after more result) :
      Executes template floor (.nodes (node :: rest)) vars run (work.join more) result
  | finished {template : String} {floor : Nat} {site : Site} {form : Loop.Form} {body : List Node} {count : Nat}
      {vars : Fields} {run : Run σ} {answer : Except ViewError Fields}
      (turned : form.turn site renderer.limits.loopIterations count vars = .ends answer) :
      Executes template floor (.rounds site form body count) vars run ⟨0, count, 0⟩ (Run.lift answer run)
  | broken {template : String} {floor : Nat} {site : Site} {form rest : Loop.Form} {body : List Node} {count : Nat}
      {vars bound : Fields} {run after : Run σ} {work : Work} {e : ViewError}
      (turned : form.turn site renderer.limits.loopIterations count vars = .round bound rest)
      (ran : Executes template floor (.nodes body) bound run work (.error e after)) :
      Executes template floor (.rounds site form body count) vars run (Work.join ⟨0, count + 1, 0⟩ work)
        (.error e after)
  | stuck {template : String} {floor : Nat} {site : Site} {form rest : Loop.Form} {body : List Node} {count : Nat}
      {vars bound changed : Fields} {run after : Run σ} {work : Work} {e : ViewError}
      (turned : form.turn site renderer.limits.loopIterations count vars = .round bound rest)
      (ran : Executes template floor (.nodes body) bound run work (.ok changed after))
      (stepped : form.after site changed = .error e) :
      Executes template floor (.rounds site form body count) vars run (Work.join ⟨0, count + 1, 0⟩ work)
        (.error e after)
  | again {template : String} {floor : Nat} {site : Site} {form rest : Loop.Form} {body : List Node} {count : Nat}
      {vars bound changed ready : Fields} {run after : Run σ} {work more : Work}
      {result : EStateM.Result ViewError (Run σ) Fields}
      (turned : form.turn site renderer.limits.loopIterations count vars = .round bound rest)
      (ran : Executes template floor (.nodes body) bound run work (.ok changed after))
      (stepped : form.after site changed = .ok ready)
      (others : Executes template floor (.rounds site rest body (count + 1)) ready after more result) :
      Executes template floor (.rounds site form body count) vars run (work.join more) result

end Renderer

end Stencil
