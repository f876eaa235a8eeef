set_option autoImplicit false

namespace Stencil.Command

inductive Verb where
  | render | compile | check | clear
deriving DecidableEq, Repr

def Verb.ofName? (name : String) : Option Verb :=
  if name = "render" then some .render
  else if name = "compile" then some .compile
  else if name = "check" then some .check
  else if name = "clear" then some .clear
  else none

def Verb.takesName (verb : Verb) : Bool := verb != .clear

inductive Flag where
  | verbose | quiet | print
deriving DecidableEq, Repr

inductive Slot where
  | config | views | cache | data | pair
deriving DecidableEq, Repr

inductive Switch where
  | flag (flag : Flag)
  | slot (slot : Slot)
  | help
  | version
deriving DecidableEq, Repr

def Switch.ofLong? (level : Option Verb) (name : String) : Option Switch :=
  if name = "verbose" then some (.flag .verbose)
  else if name = "quiet" then some (.flag .quiet)
  else if name = "config" then some (.slot .config)
  else if name = "views" then some (.slot .views)
  else if name = "cache" then some (.slot .cache)
  else if name = "help" then some .help
  else if name = "version" && level = none then some .version
  else if name = "data" && level = some .render then some (.slot .data)
  else if name = "set" && level = some .render then some (.slot .pair)
  else if name = "print" && level = some .compile then some (.flag .print)
  else none

def Switch.ofShort? (level : Option Verb) (c : Char) : Option Switch :=
  if c = 'v' then some (.flag .verbose)
  else if c = 'q' then some (.flag .quiet)
  else if c = 'c' then some (.slot .config)
  else if c = 'h' then some .help
  else if c = 'V' && level = none then some .version
  else if c = 'd' && level = some .render then some (.slot .data)
  else if c = 's' && level = some .render then some (.slot .pair)
  else none

inductive Refusal where
  | help | misuse
deriving DecidableEq, Repr

structure Given where
  flags : List Flag
  slots : List (Slot × String)
  pairs : List String
  name : Option String

namespace Given

def none : Given := ⟨[], [], [], .none⟩

def has (given : Given) (flag : Flag) : Bool := given.flags.contains flag

def value? (given : Given) (slot : Slot) : Option String := given.slots.lookup slot

def addFlag (flag : Flag) (given : Given) : Except Refusal Given :=
  if given.has flag then .error .misuse else .ok { given with flags := flag :: given.flags }

def addValue (slot : Slot) (value : String) (given : Given) : Except Refusal Given :=
  if slot = .pair then .ok { given with pairs := value :: given.pairs }
  else if value = "" || (given.value? slot).isSome then .error .misuse
  else .ok { given with slots := (slot, value) :: given.slots }

def addWord (level : Option Verb) (word : String) (given : Given) : Except Refusal Given :=
  if level.any Verb.takesName && given.name.isNone then .ok { given with name := some word }
  else .error .misuse

end Given

abbrev Pending : Type := Given × Option Slot

def shorts (level : Option Verb) (given : Given) : List Char → Except Refusal Pending
  | [] => .ok (given, none)
  | c :: rest =>
      match Switch.ofShort? level c with
      | some (.flag flag) =>
          match given.addFlag flag with
          | .ok given => shorts level given rest
          | .error refusal => .error refusal
      | some (.slot slot) =>
          match rest with
          | [] => .ok (given, some slot)
          | '=' :: value => (given.addValue slot (String.ofList value)).map fun given => (given, none)
          | value => (given.addValue slot (String.ofList value)).map fun given => (given, none)
      | some .help => .error .help
      | some .version => .error .help
      | none => .error .misuse

def long (level : Option Verb) (given : Given) (text : List Char) : Except Refusal Pending :=
  let name := String.ofList (text.takeWhile (· != '='))
  let value := match text.dropWhile (· != '=') with
    | '=' :: value => some (String.ofList value)
    | _ => none
  match Switch.ofLong? level name, value with
  | some (.flag flag), none => (given.addFlag flag).map fun given => (given, none)
  | some (.slot slot), some value => (given.addValue slot value).map fun given => (given, none)
  | some (.slot slot), none => .ok (given, some slot)
  | some .help, none => .error .help
  | some .version, none => .error .help
  | _, _ => .error .misuse

inductive Shape where
  | long (text : List Char)
  | shorts (letters : List Char)
  | separator
  | word

def Shape.of (arg : String) : Shape :=
  match arg.toList with
  | ['-', '-'] => .separator
  | '-' :: '-' :: rest => .long rest
  | ['-'] => .word
  | '-' :: rest => .shorts rest
  | _ => .word

def words (level : Option Verb) (given : Given) : List String → Except Refusal Given
  | [] => .ok given
  | word :: rest =>
      match given.addWord level word with
      | .ok given => words level given rest
      | .error refusal => .error refusal

def helpOn : List String → Refusal
  | [] => .help
  | [name] => if (Verb.ofName? name).isSome || name = "help" then .help else .misuse
  | _ => .misuse

def level (verb : Option Verb) (given : Given) :
    List String → Except Refusal (Given × Option (Verb × List String))
  | [] => .ok (given, none)
  | arg :: rest =>
      let parsed := match Shape.of arg with
        | .long text => some (long verb given text)
        | .shorts letters => some (shorts verb given letters)
        | _ => none
      match parsed with
      | some (.error refusal) => .error refusal
      | some (.ok (given, none)) => level verb given rest
      | some (.ok (given, some slot)) =>
          match rest with
          | [] => .error .misuse
          | value :: others =>
              match Shape.of value with
              | .word =>
                  match given.addValue slot value with
                  | .ok given => level verb given others
                  | .error refusal => .error refusal
              | _ => .error .misuse
      | none =>
          match Shape.of arg, verb with
          | .separator, _ => (words verb given rest).map fun given => (given, none)
          | _, some _ =>
              match given.addWord verb arg with
              | .ok given => level verb given rest
              | .error refusal => .error refusal
          | _, none =>
              match Verb.ofName? arg with
              | some verb => .ok (given, some (verb, rest))
              | none => .error (if arg = "help" then helpOn rest else .misuse)

inductive Task where
  | render (name : String) (data : Option String) (pairs : List String)
  | compile (name : String) (print : Bool)
  | check (name : String)
  | clear

structure Call where
  verbose : Bool
  quiet : Bool
  config : Option String
  views : Option String
  cache : Option String
  task : Task

def Verb.task (verb : Verb) (given : Given) : Except Refusal Task :=
  match verb, given.name with
  | .clear, _ => .ok .clear
  | .render, some name => .ok (.render name (given.value? .data) given.pairs.reverse)
  | .compile, some name => .ok (.compile name (given.has .print))
  | .check, some name => .ok (.check name)
  | _, none => .error .misuse

def Given.conflicting (given : Given) : Bool := given.has .verbose && given.has .quiet

def Call.parse (args : List String) : Except Refusal Call := do
  match ← level none .none args with
  | (_, none) => .error .misuse
  | (outer, some (verb, rest)) =>
      let (inner, _) ← level (some verb) .none rest
      let task ← verb.task inner
      if inner.conflicting || outer.conflicting then .error .misuse
      let value (slot : Slot) : Option String := (inner.value? slot).or (outer.value? slot)
      return ⟨inner.has .verbose || outer.has .verbose, inner.has .quiet || outer.has .quiet,
        value .config, value .views, value .cache, task⟩

def Call.logLevel (call : Call) : Option String :=
  if call.verbose then some "debug" else if call.quiet then some "off" else none

end Stencil.Command
