import Stencil.Store.Table

set_option autoImplicit false

namespace Stencil

-- A file has a text unless its bytes are none.
inductive Item where
  | file (text : Option String) (modified : Nat)
  | directory (modified : Nat)
deriving DecidableEq

inductive FileFault where
  | notFound | notDirectory | isDirectory | notText | badPath
deriving DecidableEq, Repr

-- The names on the way from the working directory. The name "/" leads to the root and ".." out of
-- the working directory.
abbrev Location : Type := List String

-- The working directory and the root are not among the items.
structure FileTree where
  items : List (Location × Item)

namespace FileTree

def empty : FileTree := ⟨[]⟩

def isOutside (name : String) : Bool := name == ".." || name == "/"

def find? (tree : FileTree) (location : Location) : Option Item :=
  if location.all isOutside then some (.directory 0) else tree.items.lookup location

def remove (tree : FileTree) (location : Location) : FileTree :=
  ⟨tree.items.filter fun (other, _) => other != location⟩

def put (tree : FileTree) (location : Location) (item : Item) : FileTree :=
  ⟨(location, item) :: (tree.remove location).items⟩

def greatestName : Nat := 255

def pathLimit : Nat := 4096

def parts (path : List Char) : List String :=
  ((path.splitOn '/').map String.ofList).filter fun name => name != "" && name != "."

def spelled (path : String) : List String :=
  let parts := parts path.toList
  if path.startsWith "/" then "/" :: parts else parts

def names (path : String) : Except FileFault (List String) :=
  if path = "" then .error .notFound
  else if path.toList.contains '\x00' || pathLimit ≤ path.utf8ByteSize then .error .badPath
  else
    .ok (spelled path)

def parent (location : Location) : Location :=
  match location.getLast? with
  | none => [".."]
  | some ".." => location ++ [".."]
  | some "/" => location
  | some _ => location.dropLast

def enter (tree : FileTree) (location : Location) (name : String) : Except FileFault Location :=
  match tree.find? location with
  | none => .error .notFound
  | some (.file _ _) => .error .notDirectory
  | some (.directory _) =>
      if name = ".." then .ok (parent location)
      else if greatestName < name.utf8ByteSize then .error .badPath
      else .ok (location ++ [name])

def locateFrom (tree : FileTree) (location : Location) : List String → Except FileFault Location
  | [] => .ok location
  | name :: rest => do tree.locateFrom (← tree.enter location name) rest

def locate (tree : FileTree) (path : String) : Except FileFault Location := do
  tree.locateFrom [] (← names path)

def item (tree : FileTree) (path : String) : Except FileFault Item := do
  match tree.find? (← tree.locate path) with
  | some item => return item
  | none => .error .notFound

def readText (tree : FileTree) (path : String) : Except FileFault String := do
  match ← tree.item path with
  | .file (some text) _ => return text
  | .file none _ => .error .notText
  | .directory _ => .error .isDirectory

def modified (tree : FileTree) (path : String) : Except FileFault Nat := do
  match ← tree.item path with
  | .file _ modified => return modified
  | .directory modified => return modified

def isFile (tree : FileTree) (path : String) : Bool :=
  match tree.item path with
  | .ok (.file _ _) => true
  | _ => false

def makeFrom (tree : FileTree) (now : Nat) (location : Location) :
    List String → Except FileFault FileTree
  | [] => .ok tree
  | name :: rest => do
      let next ← tree.enter location name
      match tree.find? next with
      | some (.directory _) => tree.makeFrom now next rest
      | some (.file _ _) => .error .notDirectory
      | none => (tree.put next (.directory now)).makeFrom now next rest

def makeDirectory (tree : FileTree) (now : Nat) (path : String) : Except FileFault FileTree := do
  tree.makeFrom now [] (← names path)

def writeFile (tree : FileTree) (path : String) (text : Option String) (modified : Nat) :
    Except FileFault FileTree := do
  let location ← tree.locate path
  match tree.find? location with
  | some (.directory _) => .error .isDirectory
  | _ => return tree.put location (.file text modified)

def addFile (tree : FileTree) (now : Nat) (path : String) (text : Option String) (modified : Nat) :
    Except FileFault FileTree := do
  (← tree.makeFrom now [] (← names path).dropLast).writeFile path text modified

def removeFile (tree : FileTree) (path : String) : Except FileFault FileTree := do
  let location ← tree.locate path
  match tree.find? location with
  | some (.file _ _) => return tree.remove location
  | some (.directory _) => .error .isDirectory
  | none => .error .notFound

def filesIn (tree : FileTree) (path : String) : Except FileFault (List String) := do
  let location ← tree.locate path
  match tree.find? location with
  | none => .error .notFound
  | some (.file _ _) => .error .notDirectory
  | some (.directory _) =>
      return tree.items.filterMap fun (other, item) =>
        match item, other.getLast? with
        | .file _ _, some name => if other.dropLast = location then some name else none
        | _, _ => none

def allFiles (tree : FileTree) : List String :=
  let inside := tree.items.filterMap fun (location, item) =>
    match location, item with
    | name :: _, .file _ _ => if isOutside name then none else some ("/".intercalate location)
    | _, _ => none
  inside.mergeSort fun a b => a ≤ b

end FileTree

def joinPath (directory name : String) : String :=
  if directory = "" || directory.endsWith "/" then directory ++ name else directory ++ "/" ++ name

end Stencil
