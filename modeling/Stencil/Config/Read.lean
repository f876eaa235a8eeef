import Stencil.Config.Basic
import Stencil.Store.FileTree
import Stencil.Toml.Document

set_option autoImplicit false

namespace Stencil

inductive ConfigError where
  | unreadable (path : String)
  | unparsable (path : String) (cause : Option ConfigFault)
  | invalid (fault : ConfigFault)

def ConfigError.message : ConfigError → String
  | .unreadable path => "Failed to read config file: " ++ path
  | .unparsable path _ => "Failed to parse config file: " ++ path
  | .invalid fault => (ViewError.config fault).message

namespace Config

open Toml (Setting)

def count? : Setting → Option Nat
  | .integer (.ofNat n) => if n < Decimal.wordLimit then some n else none
  | _ => none

def text? : Setting → Option String
  | .string s => some s
  | _ => none

def flag? : Setting → Option Bool
  | .boolean b => some b
  | _ => none

def setFormat (config : Config) (setting : Setting) : Except (Option ConfigFault) Config :=
  match setting with
  | .string s =>
      match Template.EchoFormat.ofText? s.toList with
      | some format => .ok { config with format }
      | none => .error (some (.echoFormat s))
  | _ => .error none

def orRefused : Option Config → Except (Option ConfigFault) Config
  | some config => .ok config
  | none => .error none

def set (config : Config) (key : String) (setting : Setting) : Except (Option ConfigFault) Config :=
  let limits := config.limits
  if key = "echo_format" then config.setFormat setting
  else orRefused <|
    if key = "views_dir" then (text? setting).map fun views => { config with views }
    else if key = "cache_dir" then (text? setting).map fun cache => { config with cache }
    else if key = "suffix" then (text? setting).map fun suffix => { config with suffix }
    else if key = "strict_blocks" then
      (flag? setting).map fun strictBlocks => { config with limits := { limits with strictBlocks } }
    else if key = Limit.includeDepth.key then
      (count? setting).map fun includeDepth => { config with limits := { limits with includeDepth } }
    else if key = Limit.inheritanceDepth.key then
      (count? setting).map fun inheritanceDepth =>
        { config with limits := { limits with inheritanceDepth } }
    else if key = Limit.loopIterations.key then
      (count? setting).map fun loopIterations =>
        { config with limits := { limits with loopIterations } }
    else none

def setAll (config : Config) : List (String × Setting) → Except (Option ConfigFault) Config
  | [] => .ok config
  | (key, setting) :: rest =>
      match config.set key setting with
      | .ok next => next.setAll rest
      | .error fault => .error fault

def ofDocument (text : String) : Except (Option ConfigFault) Config :=
  match Toml.document? text with
  | some settings => standard.setAll settings
  | none => .error none

def read (tree : FileTree) (path : String) : Except ConfigError Config :=
  match tree.readText path with
  | .error _ => .error (.unreadable path)
  | .ok text => (ofDocument text).mapError (.unparsable path)

def load (tree : FileTree) (lookup : String → Option String) (path : String) :
    Except ConfigError Config := do
  ((← read tree path).withEnvironment lookup).validate.mapError .invalid

end Config

end Stencil
