import QuoteDesk.Toml.Value
/-!
Tables while a file is read.

A key of several parts and a header of several parts bring tables into being on their way. Such a table
may be added to once more, but only in the manner in which it came: by keys if it came from a key, by
its header if it came from a header. Everything else is defined once.
-/
namespace QuoteDesk.Toml

inductive Draft where
  | value (v : Toml)
  /-- A table; `implied` if no header and no value has defined it, `dotted` if a key has brought it
  into being. -/
  | table (implied dotted : Bool) (entries : List (String × Draft))
  /-- Tables under one name, the latest first. -/
  | tables (items : List (List (String × Draft)))

namespace Draft

abbrev Entries := List (String × Draft)

def find? (name : String) : Entries → Option Draft
  | [] => none
  | (n, d) :: rest => if n = name then some d else find? name rest

def put (name : String) (d : Draft) : Entries → Entries
  | [] => [(name, d)]
  | (n, e) :: rest => if n = name then (n, d) :: rest else (n, e) :: put name d rest

def remove (name : String) (es : Entries) : Entries := es.filter (·.1 ≠ name)

/-- Changes the table at the end of a path; tables that are missing on the way come into being. The
change learns whether the table is dotted. With `dotted` set the path belongs to a key, and then it
may not lead through a table that has been defined. -/
def alter (dotted : Bool) (f : Bool → Entries → Option Entries) :
    List String → Bool → Entries → Option Entries
  | [], isDotted, es => f isDotted es
  | name :: path, _, es =>
    match find? name es with
    | none => (alter dotted f path dotted []).map fun sub => put name (.table true dotted sub) es
    | some (.value _) => none
    | some (.tables []) => none
    | some (.tables (latest :: earlier)) =>
      (alter dotted f path false latest).map fun sub => put name (.tables (sub :: earlier)) es
    | some (.table implied isDotted sub) =>
      if dotted && !implied then none
      else (alter dotted f path isDotted sub).map fun sub =>
        put name (.table implied isDotted sub) es

def addValue (path : List String) (name : String) (v : Toml) (es : Entries) : Option Entries :=
  alter true
    (fun isDotted es =>
      if isDotted == path.isEmpty then none
      else if (find? name es).isSome then none
      else some (put name (.value v) es))
    path false es

structure Section where
  path : List String
  name : String
  /-- Whether the header adds one more table to those under its name. -/
  isItem : Bool
  values : List (List String × String × Toml)

def addValues (values : List (List String × String × Toml)) (es : Entries) : Option Entries :=
  values.foldlM (fun es v => addValue v.1 v.2.1 v.2.2 es) es

/-- The entries that a header finds under its name: those of a table that other headers have
implied. -/
def adopted? (name : String) (es : Entries) : Option Entries :=
  match find? name es with
  | none => some []
  | some (.table true false sub) => some sub
  | some _ => none

def defineTable (s : Section) (es : Entries) : Option Entries := do
  let sub ← addValues s.values (← adopted? s.name es)
  return remove s.name es ++ [(s.name, .table false false sub)]

def defineItem (s : Section) (es : Entries) : Option Entries := do
  let sub ← addValues s.values []
  match find? s.name es with
  | none => return put s.name (.tables [sub]) es
  | some (.tables items) => return put s.name (.tables (sub :: items)) es
  | some _ => none

def addSection (es : Entries) (s : Section) : Option Entries :=
  alter false (fun _ es => if s.isItem then defineItem s es else defineTable s es) s.path false es

mutual

def toToml : Draft → Toml
  | .value v => v
  | .table _ _ es => .table (fieldsOf es)
  | .tables items => .array (itemsOf items)

def fieldsOf : List (String × Draft) → List (String × Toml)
  | [] => []
  | (n, d) :: rest => (n, d.toToml) :: fieldsOf rest

def itemsOf : List (List (String × Draft)) → List Toml
  | [] => []
  | es :: rest => itemsOf rest ++ [.table (fieldsOf es)]

end

end Draft
end QuoteDesk.Toml
