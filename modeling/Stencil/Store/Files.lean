import Stencil.Store.Basic
import Stencil.Store.FileTree
import Stencil.Text.Blank

set_option autoImplicit false

namespace Stencil

namespace TemplateName

def splitAt (separates : Char → Bool) : List Char → List (List Char)
  | [] => [[]]
  | c :: rest =>
      if separates c then [] :: splitAt separates rest
      else
        match splitAt separates rest with
        | [] => [[c]]
        | first :: others => (c :: first) :: others

def isSlash (c : Char) : Bool := c = '/' || c = '\\'

def isSeparator (c : Char) : Bool := c = '.' || c = '/'

def segments (name : String) : Except NameFault (List (List Char)) :=
  let text := name.toList
  let segments := splitAt isSeparator text
  if (Text.trim text).isEmpty then .error .empty
  else if text.head?.any isSlash || text.contains ':' then .error .absolute
  else if (splitAt isSlash text).contains ['.', '.'] then .error .parent
  else if text.contains '\\' then .error .backslash
  else if segments.contains [] then .error .emptySegment
  else .ok segments

def path (root suffix name : String) : Except ViewError String :=
  match segments name with
  | .ok segments => .ok (joinAll root (segments.map String.ofList) ++ suffix)
  | .error fault => .error (.invalidName name fault)
where
  joinAll (root : String) (names : List String) : String := names.foldl joinPath root

end TemplateName

structure Files where
  tree : FileTree
  views : String
  cache : String
  suffix : String

namespace Files

def artifactPath (files : Files) (key : String) : String := joinPath files.cache (key ++ ".json")

def lockDirectory (files : Files) : String := joinPath files.cache ".locks"

def lockPath (files : Files) (key : String) : String := joinPath files.lockDirectory (key ++ ".lock")

def templatePath (files : Files) (name : String) : Except ViewError String :=
  TemplateName.path files.views files.suffix name

def sourceFault (name path : String) : FileFault → ViewError
  | .notFound => .templateNotFound name path
  | _ => .sourceRead path

def sourceTime (files : Files) (name : String) : Except ViewError Nat := do
  let path ← files.templatePath name
  (files.tree.modified path).mapError (sourceFault name path)

def source (files : Files) (name : String) : Except ViewError Source := do
  let path ← files.templatePath name
  let text ← (files.tree.readText path).mapError (sourceFault name path)
  return ⟨text, ← files.sourceTime name⟩

def hasSource (files : Files) (name : String) : Bool :=
  match files.templatePath name with
  | .ok path => files.tree.isFile path
  | .error _ => false

def artifactTime (files : Files) (key : String) : Except ViewError (Option Nat) :=
  match files.tree.modified (files.artifactPath key) with
  | .ok modified => .ok (some modified)
  | .error .notFound => .ok none
  | .error _ => .error (.cacheRead (files.artifactPath key))

def artifact (files : Files) (key : String) : Except ViewError (Option Artifact) :=
  match files.tree.readText (files.artifactPath key) with
  | .ok code => do return (← files.artifactTime key).map fun modified => ⟨code, modified⟩
  | .error .notFound => .ok none
  | .error _ => .error (.cacheRead (files.artifactPath key))

def change (error : ViewError) (edit : FileTree → Except FileFault FileTree) : Action Files Unit :=
  fun files =>
    match edit files.tree with
    | .ok tree => .ok () { files with tree }
    | .error _ => .error error files

def putFile (now : Nat) (key directory path text : String) : Action Files Unit := do
  let error := ViewError.cacheWrite key path
  change error fun tree => tree.makeDirectory now directory
  change error fun tree => tree.writeFile path (some text) now

def isArtifact (name : String) : Bool := name.endsWith ".json" && name != ".json"

def clear : Action Files Nat := fun files =>
  match files.tree.filesIn files.cache with
  | .error .notFound => .ok 0 files
  | .error _ => .error (.cacheRead files.cache) files
  | .ok names =>
      let artifacts := names.filter isArtifact
      match files.tree.locate files.cache with
      | .error _ => .error (.cacheRead files.cache) files
      | .ok location =>
          let tree := artifacts.foldl (fun tree name => tree.remove (location ++ [name])) files.tree
          .ok artifacts.length { files with tree }

instance : Store Files where
  source := source
  sourceTime := sourceTime
  hasSource := hasSource
  artifact := artifact
  artifactTime := artifactTime
  write now key code := do
    let files ← get
    putFile now key files.cache (files.artifactPath key) code
  clear := clear
  lock now key := do
    let files ← get
    putFile now key files.lockDirectory (files.lockPath key) ""

end Files

end Stencil
