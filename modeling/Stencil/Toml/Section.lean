import Stencil.Store.Table
import Stencil.Toml.Scalar

set_option autoImplicit false

namespace Stencil.Toml

-- A table may be given a header after it was needed on the way to another one, and only a table that arose in a key with
-- dots is added to by such keys.
inductive Origin where
  | given | implied | dotted
deriving DecidableEq, Repr

-- A value is closed, be it a table. Of an array of tables only the last can still be added to.
inductive Entry where
  | value (setting : Setting)
  | table (origin : Origin) (entries : List (String × Entry))
  | tables (last : List (String × Entry))

def Entry.setting : Entry → Setting
  | .value setting => setting
  | .table _ _ => .other
  | .tables _ => .other

abbrev Entries : Type := Table Entry

namespace Entries

-- The table behind a name, and the entry to put in its place once the table has changed. Keys with
-- dots do not pass tables under a header of their own.
def into? (inDots : Bool) : Option Entry → Option (Origin × Entries × (Entries → Entry))
  | none =>
      let origin := if inDots then Origin.dotted else Origin.implied
      some (origin, [], .table origin)
  | some (.table origin entries) =>
      if inDots && origin = .given then none else some (origin, entries, .table origin)
  | some (.tables last) => some (.given, last, .tables)
  | some (.value _) => none

def change? (inDots : Bool) (edit : Origin → Entries → Option Entries) (origin : Origin)
    (path : List String) (entries : Entries) : Option Entries :=
  match path with
  | [] => edit origin entries
  | name :: rest =>
      match into? inDots (entries.get? name) with
      | none => none
      | some (inner, found, back) =>
          (change? inDots edit inner rest found).map fun changed => entries.set name (back changed)

def define? (name : String) (entry : Entry) (entries : Entries) : Option Entries :=
  match entries.get? name with
  | none => some (entries.set name entry)
  | some _ => none

def assign? (key : Key) (setting : Setting) (entries : Entries) : Option Entries :=
  let edit (origin : Origin) (inner : Entries) : Option Entries :=
    if key.path.isEmpty || origin = .dotted then inner.define? key.name (.value setting) else none
  change? true edit .given key.path entries

def openTable? (key : Key) (entries : Entries) : Option Entries :=
  let edit (_ : Origin) (inner : Entries) : Option Entries :=
    match inner.get? key.name with
    | some (.table .implied found) => some (inner.set key.name (.table .given found))
    | _ => inner.define? key.name (.table .given [])
  change? false edit .given key.path entries

def addTable? (key : Key) (entries : Entries) : Option Entries :=
  let edit (_ : Origin) (inner : Entries) : Option Entries :=
    match inner.get? key.name with
    | some (.tables _) => some (inner.set key.name (.tables []))
    | _ => inner.define? key.name (.tables [])
  change? false edit .given key.path entries

def assignIn? (place : List String) (key : Key) (setting : Setting) (entries : Entries) :
    Option Entries :=
  change? false (fun _ inner => inner.assign? key setting) .given place entries

end Entries

end Stencil.Toml
