import Stencil.Expr.Operators
import Stencil.Text.Case
import Stencil.Text.Entity

set_option autoImplicit false

namespace Stencil.Builtin

def names : List String :=
  ["e", "count", "length", "upper", "lower", "trim", "join", "json", "range", "default"]

-- A range has fewer items than this past its first.
def greatestRange : Nat := 100000

def one (function : String) (args : List Value) (use : Value → Except EvalFault Value) :
    Except EvalFault Value :=
  match args with
  | [value] => use value
  | args => .error (.wrongCount function 1 args.length)

def two (function : String) (args : List Value) (use : Value → Value → Except EvalFault Value) :
    Except EvalFault Value :=
  match args with
  | [first, second] => use first second
  | args => .error (.wrongCount function 2 args.length)

def onText (function : String) (args : List Value) (change : String → String) :
    Except EvalFault Value :=
  one function args fun value => .ok (.string (change value.output))

def count (function : String) (value : Value) : Except EvalFault Value :=
  match value with
  | .list items => .ok (Value.ofNat items.length)
  | .object fields => .ok (Value.ofNat fields.length)
  | .string s => .ok (Value.ofNat s.length)
  | .null => .ok (Value.ofNat 0)
  | other => .error (.uncountable function other.kind)

def joinList (function : String) (list : Value) (separator : String) : Except EvalFault Value :=
  match list with
  | .list items => .ok (.string (separator.intercalate (items.map Value.output)))
  | _ => .error (.noList function)

def join (function : String) (args : List Value) : Except EvalFault Value :=
  match args with
  | [list] => joinList function list ""
  | [list, separator] => joinList function list separator.output
  | _ => .error (.oneOrTwo function)

def signedInteger? : Value → Option Int
  | .number (.int n _) => if FitsSigned n then some n else none
  | _ => none

def integers (start stop : Int) : List Int :=
  let step : Int := if start ≤ stop then 1 else -1
  (List.range ((stop - start).natAbs + 1)).map fun (i : Nat) => start + step * i

def range (start stop : Value) : Except EvalFault Value :=
  match signedInteger? start, signedInteger? stop with
  | some start, some stop =>
      if greatestRange ≤ (stop - start).natAbs then .error (.rangeTooLong greatestRange)
      else .ok (.list ((integers start stop).map fun n => ((Number.ofInt? n).map .number).getD .null))
  | _, _ => .error .noIntegers

def trim (text : String) : String := String.ofList (Text.trim text.toList)

def call (function : String) (args : List Value) : Except EvalFault Value :=
  let name := Text.lowerAscii function
  if name = "e" then onText function args Text.escapeHtml
  else if name = "count" || name = "length" then one function args (count function)
  else if name = "upper" then onText function args Text.upper
  else if name = "lower" then onText function args Text.lower
  else if name = "trim" then onText function args trim
  else if name = "join" then join function args
  else if name = "json" then one function args fun value => .ok (.string value.json)
  else if name = "range" then two function args range
  else if name = "default" then
    two function args fun value fallback => .ok (if value.isTruthy then value else fallback)
  else .error (.unknownFunction function)

end Stencil.Builtin
