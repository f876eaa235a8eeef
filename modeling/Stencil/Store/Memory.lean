import Stencil.Store.Basic
import Stencil.Store.Table

set_option autoImplicit false

namespace Stencil

structure Memory where
  sources : Table Source
  artifacts : Table Artifact

namespace Memory

def empty : Memory := ⟨[], []⟩

def source (store : Memory) (name : String) : Except ViewError Source :=
  match store.sources.get? name with
  | some source => .ok source
  | none => .error (.templateNotFound name name)

instance : Store Memory where
  source := source
  sourceTime store name := (store.source name).map Source.modified
  hasSource store name := (store.sources.get? name).isSome
  artifact store key := .ok (store.artifacts.get? key)
  artifactTime store key := .ok ((store.artifacts.get? key).map Artifact.modified)
  write now key code :=
    modify fun store => { store with artifacts := store.artifacts.set key ⟨code, now⟩ }
  clear := do
    let store ← get
    set { store with artifacts := ([] : Table Artifact) }
    return store.artifacts.length
  lock _ _ := pure ()

def addSource (name : String) (source : Source) (store : Memory) : Memory :=
  { store with sources := store.sources.set name source }

def touchSource (name : String) (modified : Nat) (store : Memory) : Option Memory :=
  (store.sources.get? name).map fun source => store.addSource name { source with modified }

def addArtifact (key : String) (artifact : Artifact) (store : Memory) : Memory :=
  { store with artifacts := store.artifacts.set key artifact }

def touchArtifact (key : String) (modified : Nat) (store : Memory) : Option Memory :=
  (store.artifacts.get? key).map fun artifact => store.addArtifact key { artifact with modified }

end Memory

end Stencil
