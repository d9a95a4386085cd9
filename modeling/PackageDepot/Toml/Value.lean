import PackageDepot.Decimal.Binary64

/-!
# TOML values

A table knows how it came about, because that decides whether it may be added to later: by a header of
its own, as the place of a table below it, by a dotted key, or in line. `Table.set?` and `Table.open?`
carry out the statements of a document; they answer nothing where a statement may not stand.
-/

namespace PackageDepot.Toml

/-- How a table came about. -/
inductive Origin
  /-- By a header of its own. -/
  | header
  /-- As the place of a table whose header came first. -/
  | implied
  /-- By a dotted key. -/
  | dotted
  /-- In line. -/
  | inline
  deriving DecidableEq

/-- A TOML value. -/
inductive Value
  | text (s : String)
  | int (i : Int)
  | float (x : Binary64)
  | bool (b : Bool)
  | date (text : String)
  | array (items : List Value)
  | table (origin : Origin) (entries : List (String × Value))
  /-- Tables under one header; statements go to the last one. -/
  | tables (elements : List (List (String × Value)))
  deriving Inhabited

/-- The entries of a table. -/
abbrev Table := List (String × Value)

namespace Table

/-- Put a value under a key, in place if the key is there. -/
def put (key : String) (v : Value) : Table → Table
  | [] => [(key, v)]
  | (k, w) :: rest => if k == key then (k, v) :: rest else (k, w) :: put key v rest

/-- Change the last element of a list. -/
def updateLast? (f : Table → Option Table) : List Table → Option (List Table)
  | [] => none
  | [t] => (f t).map ([·])
  | t :: rest => (updateLast? f rest).map (t :: ·)

/-- Set the value under a dotted key. The tables on the way are made where they are missing; those that
have a header or stand in line are closed. -/
def setAt? (path : List String) (key : String) (v : Value) (own : Bool) (t : Table) :
    Option Table :=
  match path with
  | [] => if !own || (t.lookup key).isSome then none else some (t ++ [(key, v)])
  | step :: path =>
    match t.lookup step with
    | none => (setAt? path key v true []).map fun t' => t ++ [(step, .table .dotted t')]
    | some (.table origin t') =>
      if origin = .header ∨ origin = .inline then none
      else (setAt? path key v (origin = .dotted) t').map fun t' => t.put step (.table origin t')
    | some (.tables elements) =>
      (updateLast? (setAt? path key v false) elements).map fun es => t.put step (.tables es)
    | some _ => none

/-- Set the value under a dotted key of a table that is open. -/
def set? (path : List String) (key : String) (v : Value) (t : Table) : Option Table :=
  setAt? path key v true t

/-- Change the table at the end of a path of headers; the tables on the way are made where they are
missing. -/
def within? (f : Table → Option Table) : List String → Table → Option Table
  | [], t => f t
  | step :: path, t =>
    match t.lookup step with
    | none => (within? f path []).map fun t' => t ++ [(step, .table .implied t')]
    | some (.table origin t') =>
      if origin = .inline then none
      else (within? f path t').map fun t' => t.put step (.table origin t')
    | some (.tables elements) =>
      (updateLast? (within? f path) elements).map fun es => t.put step (.tables es)
    | some _ => none

/-- Carry out the header of a table. -/
def open? (path : List String) (key : String) (t : Table) : Option Table :=
  within? (fun t =>
    match t.lookup key with
    | none => some (t ++ [(key, .table .header [])])
    | some (.table .implied t') => some (t.put key (.table .header t'))
    | some _ => none) path t

/-- Carry out the header of one more table of a list. -/
def extend? (path : List String) (key : String) (t : Table) : Option Table :=
  within? (fun t =>
    match t.lookup key with
    | none => some (t ++ [(key, .tables [[]])])
    | some (.tables elements) => some (t.put key (.tables (elements ++ [[]])))
    | some _ => none) path t

end Table

end PackageDepot.Toml
