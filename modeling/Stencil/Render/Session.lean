import Stencil.Error
import Stencil.Store.Table

set_option autoImplicit false

namespace Stencil

def contentBlock : String := "content"

structure Frame where
  name : String
  buffer : String
  implicit : Bool
deriving DecidableEq

structure Limits where
  strictBlocks : Bool
  includeDepth : Nat
  inheritanceDepth : Nat
  loopIterations : Nat
deriving DecidableEq, Repr

-- The innermost frame comes first. The chain is in the order in which templates were rendered.
structure Session where
  blocks : Table String
  frames : List Frame
  output : String
  parent : Option String
  chain : List String
  includeDepth : Nat
  contentClaimed : Bool

namespace Session

def start : Session := ⟨[], [], "", none, [], 0, false⟩

def openFrame (name : String) (implicit : Bool) (session : Session) : Session :=
  { session with frames := ⟨name, "", implicit⟩ :: session.frames }

def begin (name : String) (session : Session) : Session := session.openFrame name false

def write (text : String) (session : Session) : Session :=
  match session with
  | ⟨blocks, ⟨name, buffer, implicit⟩ :: outer, output, parent, chain, depth, claimed⟩ =>
      ⟨blocks, ⟨name, buffer ++ text, implicit⟩ :: outer, output, parent, chain, depth, claimed⟩
  | ⟨blocks, [], output, parent, chain, depth, claimed⟩ =>
      ⟨blocks, [], output ++ text, parent, chain, depth, claimed⟩

def storeBlock (name text : String) (overwrite : Bool) (session : Session) : Session :=
  let before := if overwrite then "" else (session.blocks.get? name).getD ""
  { session with blocks := session.blocks.set name (before ++ text) }

def finish (overwrite : Bool) (session : Session) : Except ViewError (String × Session) :=
  match session.frames with
  | [] => .error .unbalancedEnd
  | frame :: outer =>
      let claimed := session.contentClaimed || (frame.name == contentBlock && !frame.implicit)
      let popped := { session with frames := outer, contentClaimed := claimed }
      .ok (frame.name, popped.storeBlock frame.name frame.buffer overwrite)

def isOpen (name : String) (session : Session) : Bool :=
  session.frames.any fun frame => !frame.implicit && frame.name == name

-- The text of a block. While the block is open that is what was stored before.
def block (limits : Limits) (name default : String) (session : Session) : Except ViewError String :=
  if limits.strictBlocks && session.isOpen name then .error (.blockOpen name)
  else .ok ((session.blocks.get? name).getD default)

def hasBlock (name : String) (session : Session) : Bool := (session.blocks.get? name).isSome

def extend (name : String) (session : Session) : Session :=
  { session with parent := session.parent.or (some name) }

def deeper (session : Session) : Session := { session with includeDepth := session.includeDepth + 1 }

-- Back to the template that inserted this one, whose content section is not the one that was closed in here.
def shallower (claimed : Bool) (session : Session) : Session :=
  { session with includeDepth := session.includeDepth - 1, contentClaimed := claimed }

def height (session : Session) : Nat := session.frames.length

def frameAbove? (floor : Nat) (session : Session) : Option Frame :=
  session.frames.reverse[floor]?

def checkClosed (template : String) (floor : Nat) (session : Session) : Except ViewError Unit :=
  match session.frameAbove? floor with
  | some frame => .error (.unclosedBlock template frame.name)
  | none => .ok ()

end Session

end Stencil
