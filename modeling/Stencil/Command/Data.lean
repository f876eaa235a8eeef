import Stencil.Json.Reader
import Stencil.Store.FileTree
import Stencil.Text.Blank
import Stencil.Text.Scan

set_option autoImplicit false

namespace Stencil

inductive FieldsFault where
  | notJson | notObject
deriving DecidableEq, Repr

def FieldsFault.message : FieldsFault → Option String
  | .notJson => none
  | .notObject => some "Template data must be a JSON object"

def Fields.ofJson (text : String) : Except FieldsFault Fields :=
  match Value.ofJson? text with
  | some (.object fields) => .ok fields
  | some _ => .error .notObject
  | none => .error .notJson

inductive DataError where
  | unreadable (path : String)
  | invalid (path : String)
  | noPair (pair : String)
  | noKey (pair : String)

def DataError.message : DataError → String
  | .unreadable path => "Failed to read data file: " ++ path
  | .invalid path => "Invalid data file: " ++ path
  | .noPair pair => "Invalid --set value '" ++ pair ++ "': expected key=value"
  | .noKey pair => "Invalid --set value '" ++ pair ++ "': key is empty"

namespace Data

def ofFile (tree : FileTree) (path : String) : Except DataError Fields :=
  match tree.readText path with
  | .error _ => .error (.unreadable path)
  | .ok text => (Fields.ofJson text).mapError fun _ => .invalid path

def valueOf (text : String) : Value := (Value.ofJson? text).getD (.string text)

def setPair (fields : Fields) (pair : String) : Except DataError Fields :=
  match Text.cut ['='] pair.toList with
  | none => .error (.noPair pair)
  | some (key, text) =>
      let name := Text.trim key
      if name.isEmpty then .error (.noKey pair)
      else .ok (fields.insert (String.ofList name) (valueOf (String.ofList text)))

def setPairs (fields : Fields) : List String → Except DataError Fields
  | [] => .ok fields
  | pair :: rest =>
      match setPair fields pair with
      | .ok next => setPairs next rest
      | .error error => .error error

def load (tree : FileTree) (path : Option String) (pairs : List String) : Except DataError Fields :=
  match path with
  | none => setPairs [] pairs
  | some path =>
      match ofFile tree path with
      | .ok fields => setPairs fields pairs
      | .error error => .error error

end Data

end Stencil
