import Stencil.Cache
import Stencil.Expr.Evaluation
import Stencil.Render.Session
import Stencil.Text.Nearest

set_option autoImplicit false

namespace Stencil

structure Run (σ : Type) where
  cache : Cache σ
  session : Session

-- The captures below `floor` belong to whoever runs the template. `insert` runs another template
-- with the variables given.
structure Scope (σ : Type) where
  template : String
  floor : Nat
  limits : Limits
  insert : String → Fields → Action (Run σ) Unit

namespace Site

def fault (site : Site) (vars : Fields) : EvalFault → ViewError
  | .undefined name => .undefinedVariable site name (Text.nearest name vars.names)
  | .unknownFunction name =>
      .evaluation site (.unknownFunction name (Text.nearest name Builtin.names).head?)
  | other => .evaluation site (.evaluation other)

def evaluate (site : Site) (vars : Fields) (e : Expr) : Except ViewError Value :=
  (Stencil.evaluate vars e).mapError (site.fault vars)

def name (site : Site) (vars : Fields) (e : Expr) : Except ViewError String :=
  match site.evaluate vars e with
  | .ok (.string s) => .ok s
  | .ok (.number n) => .ok (String.ofList n.text)
  | .ok other => .error (.evaluation site (.noName other.kind))
  | .error error => .error error

def test (site : Site) (vars : Fields) (e : Expr) : Except ViewError Bool :=
  (site.evaluate vars e).map Value.isTruthy

def text (site : Site) (vars : Fields) (e : Expr) : Except ViewError String :=
  (site.evaluate vars e).map Value.output

def items (site : Site) (vars : Fields) (source : Expr) : Except ViewError (List (Value × Value)) :=
  match site.evaluate vars source with
  | .ok (.list items) => .ok (items.zipIdx.map fun (item, i) => (Value.ofNat i, item))
  | .ok (.object fields) => .ok (fields.map fun (name, value) => (Value.string name, value))
  | .ok .null => .ok []
  | .ok other => .error (.evaluation site (.cannotIterate other.kind))
  | .error error => .error error

end Site

namespace Assignment

def one : Expr := .literal (Value.ofNat 1)

def target : Assignment → String × Expr
  | .set name value => (name, value)
  | .add name value => (name, .binary .add (.var name) value)
  | .sub name value => (name, .binary .sub (.var name) value)
  | .increment name => (name, .binary .add (.var name) one)
  | .decrement name => (name, .binary .sub (.var name) one)

def apply (site : Site) (vars : Fields) (assignment : Assignment) : Except ViewError Fields :=
  let (name, e) := assignment.target
  (site.evaluate vars e).map fun value => vars.insert name value

def applyAll (site : Site) (vars : Fields) : List Assignment → Except ViewError Fields
  | [] => .ok vars
  | assignment :: rest =>
      match assignment.apply site vars with
      | .ok changed => applyAll site changed rest
      | .error error => .error error

end Assignment

def EachHeader.bind (header : EachHeader) (vars : Fields) (key value : Value) : Fields :=
  let keyed := match header.key with
    | some name => vars.insert name key
    | none => vars
  keyed.insert header.value value

namespace Run

variable {σ : Type}

def lift {α : Type} (result : Except ViewError α) : Action (Run σ) α := fun run =>
  match result with
  | .ok a => .ok a run
  | .error error => .error error run

def inSession (change : Session → Session) : Action (Run σ) Unit := fun run =>
  .ok () { run with session := change run.session }

def read {α : Type} (question : Session → Except ViewError α) : Action (Run σ) α := fun run =>
  lift (question run.session) run

def write (text : String) : Action (Run σ) Unit := inSession (Session.write text)

def finish (overwrite : Bool) : Action (Run σ) String := fun run =>
  match run.session.finish overwrite with
  | .ok (name, session) => .ok name { run with session }
  | .error error => .error error run

def inCache {α : Type} (action : Action (Cache σ) α) : Action (Run σ) α := fun run =>
  match action run.cache with
  | .ok a cache => .ok a { run with cache }
  | .error error cache => .error error { run with cache }

end Run

abbrev Body (σ : Type) : Type := Fields → Action (Run σ) Fields

namespace Loop

variable {σ : Type}

open Run (lift)

-- `left` is the number of times that the body may still run.
def whilst (site : Site) (limit : Nat) (test : Expr) (body : Body σ) (left : Nat) : Body σ :=
  fun vars run =>
    match site.test vars test with
    | .error error => .error error run
    | .ok false => .ok vars run
    | .ok true =>
        match left with
        | 0 => .error (.loopLimit site limit) run
        | left + 1 =>
            match body vars run with
            | .ok vars run => whilst site limit test body left vars run
            | .error error run => .error error run

def each (site : Site) (limit : Nat) (header : EachHeader) (body : Body σ) (left : Nat)
    (items : List (Value × Value)) : Body σ :=
  fun vars run =>
    match items, left with
    | [], _ => .ok vars run
    | _ :: _, 0 => .error (.loopLimit site limit) run
    | (key, value) :: rest, left + 1 =>
        match body (header.bind vars key value) run with
        | .ok vars run => each site limit header body left rest vars run
        | .error error run => .error error run

def continues (site : Site) (condition : Option Expr) (vars : Fields) : Except ViewError Bool :=
  match condition with
  | some e => site.test vars e
  | none => .ok true

def counted (site : Site) (limit : Nat) (header : ForHeader) (body : Body σ) (left : Nat) : Body σ :=
  fun vars run =>
    match continues site header.condition vars with
    | .error error => .error error run
    | .ok false => .ok vars run
    | .ok true =>
        match left with
        | 0 => .error (.loopLimit site limit) run
        | left + 1 =>
            match body vars run with
            | .error error run => .error error run
            | .ok vars run =>
                match Assignment.applyAll site vars header.step with
                | .ok vars => counted site limit header body left vars run
                | .error error => .error error run

end Loop

namespace Scope

variable {σ : Type}

open Run (lift read write inSession finish)

def site (scope : Scope σ) (line : Nat) : Site := ⟨scope.template, line⟩

def runInserted (scope : Scope σ) (site : Site) (template : Expr) : Body σ := fun vars => do
  scope.insert (← lift (site.name vars template)) vars
  return vars

def extend (site : Site) (template : Expr) : Body σ := fun vars => do
  let name ← lift (site.name vars template)
  inSession fun session => if 0 < session.includeDepth then session else session.extend name
  return vars

def printBlock (scope : Scope σ) (name default : String) : Action (Run σ) Unit := do
  write (← read (Session.block scope.limits name default))

def yield (scope : Scope σ) (site : Site) (block : Expr) (default : Option Expr) : Body σ :=
  fun vars => do
    let name ← lift (site.name vars block)
    let fallback ← match default with
      | some e => lift (site.text vars e)
      | none => pure ""
    scope.printBlock name fallback
    return vars

def openSection (site : Site) (block : Expr) (inline : Option Expr) : Body σ := fun vars => do
  let name ← lift (site.name vars block)
  match inline with
  | none => inSession (Session.begin name)
  | some e =>
      let content := Text.escapeHtml (← lift (site.text vars e))
      inSession fun session => (session.begin name).write content
      let _ ← finish false
  return vars

def closeSection (scope : Scope σ) (site : Site) (mode : EndMode) : Body σ := fun vars => do
  if (← get).session.height ≤ scope.floor then throw (.malformed site .noOpenSection)
  let name ← finish (mode = .overwrite)
  if mode = .show then scope.printBlock name ""
  return vars

mutual
def runNode (scope : Scope σ) : Node → Body σ
  | .text content => fun vars => do write content; return vars
  | .comment _ => pure
  | .echo e line => fun vars => do write (← lift ((scope.site line).text vars e)); return vars
  | .conditional branches otherwise line =>
      runBranches scope (scope.site line) branches (runOtherwise scope otherwise)
  | .each header body line => fun vars => do
      let site := scope.site line
      let items ← lift (site.items vars header.source)
      let limit := scope.limits.loopIterations
      Loop.each site limit header (runNodes scope body) limit items vars
  | .counted header body line => fun vars => do
      let site := scope.site line
      let limit := scope.limits.loopIterations
      let vars ← lift (Assignment.applyAll site vars header.init)
      Loop.counted site limit header (runNodes scope body) limit vars
  | .whilst test body line =>
      let limit := scope.limits.loopIterations
      Loop.whilst (scope.site line) limit test (runNodes scope body) limit
  | .extend template line => extend (scope.site line) template
  | .insert template line => scope.runInserted (scope.site line) template
  | .yield block default line => scope.yield (scope.site line) block default
  | .openSection block inline line => openSection (scope.site line) block inline
  | .closeSection mode line => scope.closeSection (scope.site line) mode

def runNodes (scope : Scope σ) : List Node → Body σ
  | [] => pure
  | node :: rest => fun vars run =>
      match runNode scope node vars run with
      | .ok vars run => runNodes scope rest vars run
      | .error error run => .error error run

def runBranches (scope : Scope σ) (site : Site) : List (Expr × List Node) → Body σ → Body σ
  | [], last => last
  | (test, body) :: rest, last => fun vars run =>
      match site.test vars test with
      | .ok true => runNodes scope body vars run
      | .ok false => runBranches scope site rest last vars run
      | .error error => .error error run

def runOtherwise (scope : Scope σ) : Option (List Node) → Body σ
  | none => pure
  | some body => runNodes scope body
end

end Scope

end Stencil
