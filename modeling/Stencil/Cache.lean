import Stencil.Program.Code
import Stencil.Program.Compile
import Stencil.Store.Basic

set_option autoImplicit false

namespace Stencil

structure Counts where
  compiled : Nat
  reused : Nat
deriving DecidableEq, Repr

structure Cache (σ : Type) where
  store : σ
  counts : Counts

structure Compiler where
  format : Template.EchoFormat
  key : String → String
  now : Nat

namespace Cache

variable {σ : Type} [Store σ]

def inStore {α : Type} (action : Action σ α) : Action (Cache σ) α := fun cache =>
  match action cache.store with
  | .ok a store => .ok a { cache with store }
  | .error e store => .error e { cache with store }

def ask {α : Type} (question : σ → Except ViewError α) : Action (Cache σ) α := do
  match question (← get).store with
  | .ok a => return a
  | .error e => throw e

def count (change : Counts → Counts) : Action (Cache σ) Unit :=
  modify fun cache => { cache with counts := change cache.counts }

-- The stored program, unless it is older than the template or of no use. Two templates with one
-- key are told apart by the name in the program.
def stored? (compiler : Compiler) (name : String) : Action (Cache σ) (Option Program) := do
  let modified ← ask fun store => Store.sourceTime store name
  match ← ask fun store => Store.artifact store (compiler.key name) with
  | none => return none
  | some artifact =>
      if artifact.modified < modified then return none
      match Program.ofCode? artifact.code with
      | none => return none
      | some program =>
          if program.template = name then
            count fun counts => { counts with reused := counts.reused + 1 }
            return some program
          else return none

def compileAndStore (compiler : Compiler) (name : String) : Action (Cache σ) Program := do
  let source ← ask fun store => Store.source store name
  match Program.compile compiler.format name source.text with
  | .error fault => throw (.ofFault name fault)
  | .ok program =>
      inStore (Store.write compiler.now (compiler.key name) program.code)
      count fun counts => { counts with compiled := counts.compiled + 1 }
      return program

def compile (compiler : Compiler) (name : String) : Action (Cache σ) Program := do
  inStore (Store.lock compiler.now (compiler.key name))
  compileAndStore compiler name

-- A program as new as its template. The store is asked again once it is locked, since another may
-- have compiled the template meanwhile.
def ensureFresh (compiler : Compiler) (name : String) : Action (Cache σ) Program := do
  match ← stored? compiler name with
  | some program => return program
  | none =>
      inStore (Store.lock compiler.now (compiler.key name))
      match ← stored? compiler name with
      | some program => return program
      | none => compileAndStore compiler name

def isExpired (compiler : Compiler) (name : String) : Action (Cache σ) Bool := do
  let modified ← ask fun store => Store.sourceTime store name
  match ← ask fun store => Store.artifactTime store (compiler.key name) with
  | some stored => return stored < modified
  | none => return true

end Cache

end Stencil
