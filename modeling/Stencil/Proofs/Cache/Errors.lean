import Stencil.Proofs.Cache.Guards
import Stencil.Store.Files
import Stencil.Store.Memory

set_option autoImplicit false

namespace Stencil

open Stencil.Action

def ViewError.ofCache : ViewError → Bool
  | .templateNotFound _ _ | .invalidName _ _ | .sourceRead _ | .cacheRead _ | .cacheWrite _ _ | .malformed _ _
  | .expression _ _ _ => true
  | _ => false

def OfCache {α : Type} (answer : Except ViewError α) : Prop := ∀ e, answer = .error e → e.ofCache = true

theorem ofCache_map {α β : Type} (result : Except ViewError α) (change : α → β) (known : OfCache result) :
    OfCache (result.map change) := by
  intro e failed
  cases result with
  | ok a => cases failed
  | error fault =>
      obtain rfl := Except.error.inj failed
      exact known fault rfl

theorem ofCache_mapError {α ε : Type} (result : Except ε α) (change : ε → ViewError)
    (known : ∀ fault, (change fault).ofCache = true) : OfCache (result.mapError change) := by
  intro e failed
  cases result with
  | ok a => cases failed
  | error fault =>
      obtain rfl := Except.error.inj failed
      exact known fault

theorem ofCache_bind {α β : Type} (first : Except ViewError α) (next : α → Except ViewError β) (known : OfCache first)
    (more : ∀ a, OfCache (next a)) : OfCache (first >>= next) := by
  intro e failed
  cases first with
  | ok a => exact more a e failed
  | error fault =>
      obtain rfl := Except.error.inj failed
      exact known fault rfl

structure Store.Calm (σ : Type) [Store σ] : Prop where
  source : ∀ (store : σ) name, OfCache (Store.source store name)
  sourceTime : ∀ (store : σ) name, OfCache (Store.sourceTime store name)
  artifact : ∀ (store : σ) key, OfCache (Store.artifact store key)
  write : ∀ now key code,
    Ensures (fun _ : σ => True) (Store.write now key code) (fun _ _ => True) fun e => e.ofCache = true
  lock : ∀ now key, Ensures (fun _ : σ => True) (Store.lock now key) (fun _ _ => True) fun e => e.ofCache = true

theorem ViewError.ofCache_ofFault (template : String) (fault : Template.Fault) : (ofFault template fault).ofCache = true := by
  rw [ofFault]
  cases fault.kind <;> rfl

theorem Store.Calm.guarded {σ : Type} [Store σ] (calm : Store.Calm σ) (format : Template.EchoFormat) :
    Store.Guarded format (fun _ : σ => True) (fun _ => True) fun e => e.ofCache = true where
  sourceTime store name := calm.sourceTime store name
  artifact store key := calm.artifact store key
  source store name := calm.source store name
  fault := ViewError.ofCache_ofFault
  found _ _ _ _ _ _ _ := trivial
  compiled _ _ _ program _ _ _ := ⟨trivial, fun now key => guards_of_ensures _ (calm.write now key program.code)⟩
  lock now key := guards_of_ensures _ (calm.lock now key)

theorem Cache.ofCache_ensureFresh {σ : Type} [Store σ] (calm : Store.Calm σ) (compiler : Compiler) (name : String)
    (cache after : Cache σ) (e : ViewError) (failed : ensureFresh compiler name cache = .error e after) :
    e.ofCache = true := by
  have ended := guards_ensureFresh (calm.guarded compiler.format) compiler.key compiler.now name cache trivial
  rw [failed] at ended
  exact ended.1

theorem Cache.ensures_ensureFresh {σ : Type} [Store σ] (calm : Store.Calm σ) (compiler : Compiler) (name : String) :
    Ensures (fun _ : Cache σ => True) (ensureFresh compiler name) (fun _ _ => True) (· ≠ .unbalancedEnd) := by
  intro cache _
  cases ended : ensureFresh compiler name cache with
  | ok _ _ => exact .ok trivial
  | error e after =>
      have known := ofCache_ensureFresh calm compiler name cache after e ended
      refine .error fun unbalanced => ?_
      rw [unbalanced] at known
      cases known

theorem Memory.ofCache_source (store : Memory) (name : String) : OfCache (store.source name) := by
  intro e failed
  rw [Memory.source] at failed
  split at failed
  · cases failed
  · obtain rfl := Except.error.inj failed
    rfl

theorem Memory.calm : Store.Calm Memory where
  source store name := store.ofCache_source name
  sourceTime store name := ofCache_map _ _ (store.ofCache_source name)
  artifact _ _ _ failed := by cases failed
  write _ _ _ := fun _ _ => .ok trivial
  lock _ _ := fun _ _ => .ok trivial

namespace Files

theorem ofCache_sourceFault (name path : String) (fault : FileFault) : (sourceFault name path fault).ofCache = true := by
  cases fault <;> rfl

theorem ofCache_templatePath (files : Files) (name : String) : OfCache (files.templatePath name) := by
  intro e failed
  simp only [templatePath, TemplateName.path] at failed
  split at failed
  · cases failed
  · obtain rfl := Except.error.inj failed
    rfl

theorem ofCache_sourceTime (files : Files) (name : String) : OfCache (files.sourceTime name) :=
  ofCache_bind _ _ (files.ofCache_templatePath name) fun path => ofCache_mapError _ _ (ofCache_sourceFault name path)

theorem ofCache_source (files : Files) (name : String) : OfCache (files.source name) := by
  refine ofCache_bind _ _ (files.ofCache_templatePath name) fun path => ?_
  refine ofCache_bind _ _ (ofCache_mapError _ _ (ofCache_sourceFault name path)) fun text => ?_
  refine ofCache_bind _ _ (files.ofCache_sourceTime name) fun modified e failed => ?_
  cases failed

theorem ofCache_artifactTime (files : Files) (key : String) : OfCache (files.artifactTime key) := by
  intro e failed
  simp only [artifactTime] at failed
  split at failed
  · cases failed
  · cases failed
  · obtain rfl := Except.error.inj failed
    rfl

theorem ofCache_artifact (files : Files) (key : String) : OfCache (files.artifact key) := by
  intro e failed
  simp only [artifact] at failed
  split at failed
  · refine ofCache_bind _ _ (files.ofCache_artifactTime key) (fun time e failed => ?_) e failed
    cases failed
  · cases failed
  · obtain rfl := Except.error.inj failed
    rfl

theorem ensures_putFile (now : Nat) (key directory path text : String) :
    Ensures (fun _ => True) (putFile now key directory path text) (fun _ _ => True) fun e => e.ofCache = true := by
  have changed : ∀ edit, Ensures (fun _ => True) (change (.cacheWrite key path) edit) (fun _ _ => True)
      fun e => e.ofCache = true := by
    intro edit files _
    simp only [change]
    cases edit files.tree with
    | ok tree => exact .ok trivial
    | error fault => exact .error rfl
  exact ensures_bind _ _ (changed _) fun _ => changed _

theorem calm : Store.Calm Files where
  source := ofCache_source
  sourceTime := ofCache_sourceTime
  artifact := ofCache_artifact
  write now key code := fun files start => ensures_putFile now key files.cache _ code files start
  lock now key := fun files start => ensures_putFile now key files.lockDirectory _ "" files start

end Files

end Stencil
