import Stencil.Expr.Fault
import Stencil.Template.Fault

set_option autoImplicit false

namespace Stencil

structure Site where
  template : String
  line : Nat

inductive NameFault where
  | empty | absolute | parent | backslash | emptySegment
deriving DecidableEq, Repr

def NameFault.reason : NameFault → String
  | .empty => "name is empty"
  | .absolute => "absolute paths are not allowed"
  | .parent => "parent directory segments are not allowed"
  | .backslash => "use '.' or '/' to separate directories"
  | .emptySegment => "empty path segment"

inductive RunFault where
  | evaluation (fault : EvalFault)
  | unknownFunction (name : String) (similar : Option String)
  | noName (found : Value.Kind)
  | cannotIterate (found : Value.Kind)
  | noFields

def RunFault.message : RunFault → String
  | .evaluation fault => fault.message
  | .unknownFunction name none => "unknown function '" ++ name ++ "'"
  | .unknownFunction name (some similar) =>
      "unknown function '" ++ name ++ "', did you mean '" ++ similar ++ "'?"
  | .noName found => "expected a name, found " ++ found.name
  | .cannotIterate found => "cannot iterate over " ++ found.name
  | .noFields => "render data must be an object of named values"

inductive Descent where
  | inclusion | inheritance
deriving DecidableEq, Repr

def Descent.name : Descent → String
  | .inclusion => "include"
  | .inheritance => "inheritance"

inductive Limit where
  | includeDepth | inheritanceDepth | loopIterations
deriving DecidableEq, Repr

def Limit.key : Limit → String
  | .includeDepth => "max_include_depth"
  | .inheritanceDepth => "max_inheritance_depth"
  | .loopIterations => "max_loop_iterations"

inductive ConfigFault where
  | noViews
  | noCache
  | separatorInSuffix (suffix : String)
  | zeroLimit (limit : Limit)
  | echoFormat (format : String)

def ConfigFault.message : ConfigFault → String
  | .noViews => "views_dir must not be empty"
  | .noCache => "cache_dir must not be empty"
  | .separatorInSuffix suffix => "suffix '" ++ suffix ++ "' must not contain path separators"
  | .zeroLimit limit => limit.key ++ " must be at least 1"
  | .echoFormat format =>
      "echo_format '" ++ format ++ "' must contain exactly one '" ++ "\x7b\x7d" ++ "'"

inductive ViewError where
  | templateNotFound (name path : String)
  | invalidName (name : String) (fault : NameFault)
  | malformed (site : Site) (what : Template.Malformed)
  | expression (site : Site) (place : Template.Place) (error : ParseError)
  | undefinedVariable (site : Site) (variableName : String) (similar : List String)
  | evaluation (site : Site) (fault : RunFault)
  | loopLimit (site : Site) (limit : Nat)
  | blockOpen (name : String)
  | unbalancedEnd
  | unclosedBlock (template name : String)
  | cycle (chain : List String)
  | tooDeep (descent : Descent) (limit : Nat) (template : String)
  | cacheWrite (key path : String)
  | cacheRead (path : String)
  | sourceRead (path : String)
  | output
  | config (fault : ConfigFault)

namespace ViewError

def position (site : Site) : String := "'" ++ site.template ++ "' at line " ++ toString site.line

def message : ViewError → String
  | .templateNotFound name path => "Template '" ++ name ++ "' not found (looked for " ++ path ++ ")"
  | .invalidName name fault => "Invalid template name '" ++ name ++ "': " ++ fault.reason
  | .malformed site what => "Malformed directive in " ++ position site ++ ": " ++ what.message
  | .expression site place error =>
      "Syntax error in " ++ position site ++ ": " ++ place.text ++ ": " ++ error.message
  | .undefinedVariable site name _ => "Undefined variable '$" ++ name ++ "' in " ++ position site
  | .evaluation site fault => "Evaluation failed in " ++ position site ++ ": " ++ fault.message
  | .loopLimit site limit => "Loop in " ++ position site ++ " exceeded " ++ toString limit ++ " iterations"
  | .blockOpen name => "Block '" ++ name ++ "' was read while it is still open"
  | .unbalancedEnd => "No open block to end"
  | .unclosedBlock template name => "Template '" ++ template ++ "' left section '" ++ name ++ "' open"
  | .cycle chain => "Circular template inheritance: " ++ " -> ".intercalate chain
  | .tooDeep descent limit template =>
      descent.name ++ " depth limit of " ++ toString limit ++ " exceeded at '" ++ template ++ "'"
  | .cacheWrite key path => "Failed to write compiled artifact '" ++ key ++ "' to " ++ path
  | .cacheRead path => "Failed to access compiled artifact store at " ++ path
  | .sourceRead path => "Failed to read template source " ++ path
  | .output => "Failed to write rendered output"
  | .config fault => "Configuration error: " ++ fault.message

def template? : ViewError → Option String
  | .templateNotFound name _ => some name
  | .invalidName name _ => some name
  | .malformed site _ => some site.template
  | .expression site _ _ => some site.template
  | .undefinedVariable site _ _ => some site.template
  | .evaluation site _ => some site.template
  | .loopLimit site _ => some site.template
  | .unclosedBlock template _ => some template
  | .tooDeep _ _ template => some template
  | _ => none

def suggestion? : ViewError → Option String
  | .templateNotFound _ _ =>
      some "Check the template name, the views directory and the configured suffix"
  | .invalidName _ _ => some "Use a relative dot-separated name without '..' segments"
  | .malformed _ _ =>
      some ("Check that every @if/@foreach/@section has a matching end directive and balanced "
        ++ "parentheses")
  | .undefinedVariable _ _ [] =>
      some ("Pass the variable in the data context or use `" ++ "\x7b\x7b $name or 'default' \x7d\x7d"
        ++ "`")
  | .undefinedVariable _ _ similar =>
      some ("Did you mean " ++ ", ".intercalate (similar.map ("$" ++ ·)) ++ "?")
  | .cycle _ => some "Remove the @extends that points back into the chain"
  | .unclosedBlock _ _ =>
      some "Close the section with @endsection, @show, @stop, @append or @overwrite"
  | .cacheWrite _ _ => some "Check that the cache directory exists and is writable"
  | .cacheRead _ => some "Check that the cache directory exists and is writable"
  | _ => none

def details? : ViewError → Option String
  | .templateNotFound _ _ =>
      some "Names use dot notation: 'layouts.main' maps to views/layouts/main<suffix>"
  | .expression _ _ _ => some "Expressions use $variables, literals, operators and function calls"
  | .cacheWrite _ _ => some "Compiled templates are never served stale; the render was aborted"
  | .cacheRead _ => some "Compiled templates are never served stale; the render was aborted"
  | _ => none

def ofFault (template : String) (fault : Template.Fault) : ViewError :=
  match fault.kind with
  | .malformed what => .malformed ⟨template, fault.line⟩ what
  | .expression place error => .expression ⟨template, fault.line⟩ place error

end ViewError

end Stencil
