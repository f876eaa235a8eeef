import Stencil.Toml.Section

set_option autoImplicit false

namespace Stencil.Toml

def skipLines (fuel : Nat) (text : List Char) : List Char :=
  match fuel, skipBlanks text with
  | fuel + 1, '#' :: comment => skipLines fuel (comment.dropWhile fun c => !isControl c)
  | fuel + 1, rest =>
      match newLine? rest with
      | some after => skipLines fuel after
      | none => rest
  | 0, rest => rest

def skipAll (text : List Char) : List Char := skipLines text.length text

-- `fuel` bounds the steps taken, of which every one takes a character or more; `room` is how much
-- deeper values may stand in one another.
mutual
def value? (fuel room : Nat) (text : List Char) : Option (Setting × List Char) :=
  match fuel with
  | 0 => none
  | fuel + 1 =>
      match text, room with
      | '[' :: _, 0 => none
      | '\x7b' :: _, 0 => none
      | '[' :: rest, room + 1 =>
          (items? fuel room (skipAll rest)).map fun after => (.other, after)
      | '\x7b' :: rest, room + 1 =>
          (members? fuel room [] (skipAll rest)).map fun after => (.other, after)
      | '"' :: _, _ => (quoted? text).map fun (s, after) => (.string (String.ofList s), after)
      | '\'' :: _, _ => (quoted? text).map fun (s, after) => (.string (String.ofList s), after)
      | _, _ => unquoted? text

def items? (fuel room : Nat) (text : List Char) : Option (List Char) :=
  match fuel with
  | 0 => none
  | fuel + 1 =>
      match text with
      | ']' :: rest => some rest
      | _ =>
          match value? fuel room text with
          | none => none
          | some (_, after) =>
              match skipAll after with
              | ',' :: rest => items? fuel room (skipAll rest)
              | ']' :: rest => some rest
              | _ => none

def members? (fuel room : Nat) (entries : Entries) (text : List Char) : Option (List Char) :=
  match fuel with
  | 0 => none
  | fuel + 1 =>
      match text with
      | '\x7d' :: rest => some rest
      | _ =>
          match (key? text).map fun (key, after) => (key, skipAll after) with
          | some (key, '=' :: rest) =>
              match value? fuel room (skipAll rest) with
              | none => none
              | some (setting, after) =>
                  match entries.assign? key setting, skipAll after with
                  | some entries, ',' :: rest => members? fuel room entries (skipAll rest)
                  | some _, '\x7d' :: rest => some rest
                  | _, _ => none
          | _ => none
end

-- All of the form is checked, but only what stands at the top is asked for later.
structure State where
  entries : Entries
  place : List String

namespace State

def enter (key : Key) (entries : Entries) : State := ⟨entries, key.path ++ [key.name]⟩

def line? (state : State) (text : List Char) : Option (State × List Char) :=
  match text with
  | '[' :: '[' :: rest =>
      match key? rest with
      | some (key, ']' :: ']' :: after) =>
          (state.entries.addTable? key).map fun entries => (enter key entries, after)
      | _ => none
  | '[' :: rest =>
      match key? rest with
      | some (key, ']' :: after) =>
          (state.entries.openTable? key).map fun entries => (enter key entries, after)
      | _ => none
  | _ =>
      match key? text with
      | some (key, '=' :: rest) =>
          match value? (2 * rest.length + 2) nestingLimit (skipBlanks rest) with
          | some (setting, after) =>
              (state.entries.assignIn? state.place key setting).map fun entries =>
                ({ state with entries }, after)
          | none => none
      | _ => none

def lines? (fuel : Nat) (state : State) (text : List Char) : Option State :=
  match fuel, skipAll text with
  | _, [] => some state
  | 0, _ => none
  | fuel + 1, line =>
      match state.line? line with
      | none => none
      | some (next, after) =>
          match endOfLine? after with
          | some rest => next.lines? fuel rest
          | none => none

end State

def document? (text : String) : Option (List (String × Setting)) :=
  let body := match text.toList with
    | '\uFEFF' :: rest => rest
    | all => all
  (State.lines? body.length ⟨[], []⟩ body).map fun state =>
    let settings := state.entries.map fun (name, entry) => (name, entry.setting)
    settings.mergeSort fun (a, _) (b, _) => a ≤ b

end Stencil.Toml
