import Stencil.Render.Session
import Stencil.Template.Echo

set_option autoImplicit false

namespace Stencil

structure Config where
  views : String
  cache : String
  suffix : String
  format : Template.EchoFormat
  limits : Limits

namespace Config

def standard : Config where
  views := "views"
  cache := "storage/views"
  suffix := ".tpl.html"
  format := .escaping
  limits := ⟨false, 32, 16, 100000⟩

def limitFault? (limits : Limits) : Option Limit :=
  if limits.includeDepth = 0 then some .includeDepth
  else if limits.inheritanceDepth = 0 then some .inheritanceDepth
  else if limits.loopIterations = 0 then some .loopIterations
  else none

def isSeparator (c : Char) : Bool := c = '/' || c = '\\'

def fault? (config : Config) : Option ConfigFault :=
  if config.views = "" then some .noViews
  else if config.cache = "" then some .noCache
  else if config.suffix.toList.any isSeparator then some (.separatorInSuffix config.suffix)
  else (limitFault? config.limits).map .zeroLimit

def validate (config : Config) : Except ConfigFault Config :=
  match config.fault? with
  | some fault => .error fault
  | none => .ok config

def viewsVariable : String := "VELLUM_VIEWS_DIR"

def cacheVariable : String := "VELLUM_CACHE_DIR"

def withEnvironment (lookup : String → Option String) (config : Config) : Config :=
  let named (variableName : String) : Option String := (lookup variableName).filter (· != "")
  { config with
    views := (named viewsVariable).getD config.views
    cache := (named cacheVariable).getD config.cache }

def withDirectories (views cache : Option String) (config : Config) : Config :=
  { config with views := views.getD config.views, cache := cache.getD config.cache }

end Config

end Stencil
