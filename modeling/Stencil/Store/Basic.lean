import Stencil.Error

set_option autoImplicit false

namespace Stencil

-- The text of a template, and when it was last changed, in seconds.
structure Source where
  text : String
  modified : Nat
deriving DecidableEq

structure Artifact where
  code : String
  modified : Nat
deriving DecidableEq

abbrev Action (σ α : Type) : Type := EStateM ViewError σ α

class Store (σ : Type) where
  source (store : σ) (name : String) : Except ViewError Source
  sourceTime (store : σ) (name : String) : Except ViewError Nat
  hasSource (store : σ) (name : String) : Bool
  artifact (store : σ) (key : String) : Except ViewError (Option Artifact)
  artifactTime (store : σ) (key : String) : Except ViewError (Option Nat)
  write (now : Nat) (key code : String) : Action σ Unit
  clear : Action σ Nat
  lock (now : Nat) (key : String) : Action σ Unit

end Stencil
