import Stencil.Command.Execution

set_option autoImplicit false

namespace Stencil.Command

def usage : String :=
  "usage: stencil [--config FILE] [--views DIR] [--cache DIR] [--verbose | --quiet] COMMAND\n"
    ++ "commands: render NAME [--data FILE] [--set KEY=VALUE], compile NAME [--print], check NAME, clear\n"

partial def readLines (input : IO.FS.Stream) : IO (List String) := do
  let line ← input.getLine
  if line.isEmpty then return []
  return (line.dropEndWhile (· == '\n')).toString :: (← readLines input)

-- The files in reach are named on standard input, one a line: the time of the last change in seconds, a blank, the path.
def readEntry (tree : FileTree) (line : String) : IO FileTree := do
  match line.splitOn " " with
  | seconds :: first :: rest =>
      let path := " ".intercalate (first :: rest)
      let modified := ((seconds.splitOn ".").head?.bind String.toNat?).getD 0
      let bytes ← IO.FS.readBinFile path
      match tree.addFile modified path (String.fromUTF8? bytes) modified with
      | .ok tree => return tree
      | .error _ => throw (IO.userError ("cannot use " ++ path))
  | _ => throw (IO.userError ("not a file and its time: " ++ line))

def latest (tree : FileTree) : Nat :=
  tree.items.foldl (fun time (_, item) =>
    match item with
    | .file _ modified => max time modified
    | .directory _ => time) 0

def pathOf : Location → String
  | "/" :: names => "/" ++ "/".intercalate names
  | names => "/".intercalate names

-- A directory is older among the items than what is in it.
def writeBack (before after : FileTree) : IO Unit := do
  for (location, item) in after.items.reverse do
    if before.find? location != some item then
      match item with
      | .file (some text) _ => IO.FS.writeFile (pathOf location) text
      | .file none _ => pure ()
      | .directory _ => IO.FS.createDirAll (pathOf location)
  for (location, item) in before.items do
    match after.find? location, item with
    | none, .file _ _ => IO.FS.removeFile (pathOf location)
    | _, _ => pure ()

def runLine (args : List String) : IO UInt32 := do
  match Call.parse args with
  | .error .help =>
      IO.print usage
      return 0
  | .error .misuse =>
      IO.eprint usage
      return 2
  | .ok call =>
      let tree ← (← readLines (← IO.getStdin)).foldlM readEntry .empty
      let views ← IO.getEnv Config.viewsVariable
      let cache ← IO.getEnv Config.cacheVariable
      let lookup (variableName : String) : Option String :=
        if variableName = Config.viewsVariable then views
        else if variableName = Config.cacheVariable then cache
        else none
      let outcome := call.run ⟨tree, lookup, latest tree + 1⟩
      IO.print outcome.output
      writeBack tree outcome.tree
      match outcome.failure with
      | none => return 0
      | some failure =>
          for part in failure.report do IO.eprintln part
          return 1

end Stencil.Command

def main (args : List String) : IO UInt32 := Stencil.Command.runLine args
