import Stencil.Command.Arguments
import Stencil.Command.Data
import Stencil.Config.Read
import Stencil.Config.Setup

set_option autoImplicit false

namespace Stencil.Command

inductive Failure where
  | view (error : ViewError)
  | config (error : ConfigError)
  | data (error : DataError)
  | notUnder (name views : String)

namespace Failure

def message : Failure → String
  | .view error => error.message
  | .config error => error.message
  | .data error => error.message
  | .notUnder name views => "Template '" ++ name ++ "' not found under " ++ views

def details? : Failure → Option String
  | .view error => error.details?
  | _ => none

def suggestion? : Failure → Option String
  | .view error => error.suggestion?
  | _ => none

def text (failure : Failure) : String :=
  failure.message ++ ((failure.details?.map ("\nDetails: " ++ ·)).getD "")
    ++ ((failure.suggestion?.map ("\nSuggestion: " ++ ·)).getD "")

def report (failure : Failure) : List String :=
  ["error: " ++ failure.message] ++ (failure.details?.map ("details: " ++ ·)).toList
    ++ (failure.suggestion?.map ("suggestion: " ++ ·)).toList

end Failure

structure World where
  tree : FileTree
  lookup : String → Option String
  now : Nat

structure Outcome where
  output : String
  failure : Option Failure
  tree : FileTree

def defaultConfigFile : String := "vellum.toml"

def Call.config? (call : Call) (world : World) : Except ConfigError Config := do
  let base ← match call.config with
    | some path => Config.load world.tree world.lookup path
    | none =>
        if world.tree.isFile defaultConfigFile then
          Config.load world.tree world.lookup defaultConfigFile
        else pure (Config.standard.withEnvironment world.lookup)
  (base.withDirectories call.views call.cache).validate.mapError .invalid

abbrev Printing (α : Type) : Type := EStateM Failure (Cache Files × String) α

def print (line : String) : Printing Unit := modify fun (cache, output) => (cache, output ++ line)

def inCache {α : Type} (action : Action (Cache Files) α) : Printing α := fun (cache, output) =>
  match action cache with
  | .ok a cache => .ok a (cache, output)
  | .error error cache => .error (.view error) (cache, output)

def lift {α : Type} (result : Except Failure α) : Printing α :=
  match result with
  | .ok a => pure a
  | .error failure => throw failure

def inspect (config : Config) (renderer : Renderer) (name : String) : Printing Unit := do
  let store := (← get).1.store
  if !Files.hasSource store name then throw (.notUnder name config.views)
  let source ← lift ((Files.source store name).mapError .view)
  let _ ← lift ((Program.compile renderer.compiler.format name source.text).mapError fun fault =>
    .view (.ofFault name fault))
  print ("✓ " ++ name ++ " compiles\n")
  if ← inCache (Cache.isExpired renderer.compiler name) then
    print "! compiled artifact is missing or stale\n"
  else print "✓ compiled artifact is fresh\n"

def Task.run (task : Task) (config : Config) (renderer : Renderer) : Printing Unit := do
  match task with
  | .render name path pairs =>
      let data ← lift ((Data.load (← get).1.store.tree path pairs).mapError .data)
      print (← inCache (renderer.render name data))
  | .compile name whole =>
      let program ← inCache (Cache.compile renderer.compiler name)
      if whole then print (program.toTree.pretty ++ "\n")
      else
        print ("✓ Compiled " ++ name ++ " (" ++ toString program.nodes.length
          ++ " top-level nodes) -> " ++ renderer.compiler.key name ++ "\n")
  | .check name => inspect config renderer name
  | .clear =>
      let removed ← inCache (Cache.inStore Files.clear)
      print ("✓ Removed " ++ toString removed ++ " compiled artifact(s) from " ++ config.cache ++ "\n")

def Call.run (call : Call) (world : World) : Outcome :=
  match call.config? world with
  | .error error => ⟨"", some (.config error), world.tree⟩
  | .ok config =>
      let cache : Cache Files := ⟨config.files world.tree, ⟨0, 0⟩⟩
      match call.task.run config (config.renderer world.now) (cache, "") with
      | .ok _ (cache, output) => ⟨output, none, cache.store.tree⟩
      | .error failure (cache, output) => ⟨output, some failure, cache.store.tree⟩

end Stencil.Command
