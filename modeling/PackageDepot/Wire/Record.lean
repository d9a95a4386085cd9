import PackageDepot.Wire.Codec

/-!
# Records

A `Record ρ α` reads an `α` from some fields of a document and writes those fields of a `ρ`. Records
are put together field by field: `Record.of f` reads nothing and `Record.also` adds a field, the next
argument of `f`. The entries of a document are read in the order in which they are written, so the
first fault is the one that is reported; a field that is missing is noticed at the end, the first one
in the order of the declaration.
-/

namespace PackageDepot.Wire

/-- Some fields of a record: how an `α` is read from them, and how they are written for a `ρ`. -/
structure Record (ρ α : Type) where
  /-- The names under which the fields are read. -/
  names : List String
  /-- What was read so far. -/
  State : Type
  start : State
  /-- Read the value under one of the names. -/
  read : ∀ {ν : Type} [Source ν], String → ν → State → Except Fault State
  /-- The value at the end of the document. -/
  finish : State → Except Fault α
  /-- Read the fields by position; the values behind them are left over. -/
  listed : ∀ {ν : Type} [Source ν], List ν → Except Fault (α × List ν)
  write : ρ → List (String × Form)

namespace Record

variable {ρ α β : Type}

/-- No field at all. -/
def of (a : α) : Record ρ α where
  names := []
  State := Unit
  start := ()
  read _ _ s := .ok s
  finish _ := .ok a
  listed values := .ok (a, values)
  write _ := []

/-- Read one more field, and give it to what the fields before it make. -/
def also (f : Record ρ (β → α)) (g : Record ρ β) : Record ρ α where
  names := f.names ++ g.names
  State := f.State × g.State
  start := (f.start, g.start)
  read name n s := do
    if f.names.contains name then return (← f.read name n s.1, s.2)
    else return (s.1, ← g.read name n s.2)
  finish s := do
    let make ← f.finish s.1
    return make (← g.finish s.2)
  listed values := do
    let (make, values) ← f.listed values
    let (b, values) ← g.listed values
    return (make b, values)
  write r := f.write r ++ g.write r

/-- One field. `absent` is its value where it is missing; `omit` says when it is not written. -/
def field (name : String) (aliases : List String) (get : ρ → β)
    (decode : ∀ {ν : Type} [Source ν], ν → Except Fault β) (absent : Option β)
    (write : β → Option Form) : Record ρ β where
  names := name :: aliases
  State := Option β
  start := none
  read _ n s := do
    if s.isSome then throw (.duplicateField name)
    return some (← decode n)
  finish s :=
    match s.or absent with
    | some b => .ok b
    | none => .error (.missingField name)
  listed values := do
    match values with
    | n :: rest => return (← decode n, rest)
    | [] => return (← need absent, [])
  write r := ((write (get r)).map fun f => (name, f)).toList

/-- A field that has to be there. -/
def required (name : String) (get : ρ → β) (c : Codec β) (aliases : List String := []) :
    Record ρ β :=
  field name aliases get c.decode none fun b => some (c.encode b)

/-- A field that stands for `value` where it is missing, and is always written. -/
def withDefault (name : String) (get : ρ → β) (c : Codec β) (value : β) : Record ρ β :=
  field name [] get c.decode (some value) fun b => some (c.encode b)

/-- A field that is not written if it is `value`, which it stands for where it is missing. -/
def elided [DecidableEq β] (name : String) (get : ρ → β) (c : Codec β) (value : β) : Record ρ β :=
  field name [] get c.decode (some value) fun b => if b = value then none else some (c.encode b)

/-- Read a value that may be empty. -/
def readGiven {ν : Type} [Source ν] (c : Codec β) (n : ν) : Except Fault (Option β) := do
  if ← Source.given n then return some (← c.decode n)
  else return none

/-- A field that may be missing or empty. -/
def optional (name : String) (get : ρ → Option β) (c : Codec β) : Record ρ (Option β) :=
  field name [] get (readGiven c) (some none) (fun b => b.map c.encode)

/-- A field that may be missing or empty, though among values that are given by position it has to be
there. -/
def mayLack (name : String) (get : ρ → Option β) (c : Codec β) : Record ρ (Option β) :=
  { optional name get c with
    listed := fun values => do
      match values with
      | n :: rest => return (← readGiven c n, rest)
      | [] => throw .malformed }

/-- Read the entries of a document in order. What stands under another name than the record's goes to
`other`. -/
def readEntries {ν σ : Type} [Source ν] (r : Record ρ α)
    (other : String → ν → σ → Except Fault σ) :
    List (Except Fault String × ν) → r.State × σ → Except Fault (r.State × σ)
  | [], s => .ok s
  | (name, n) :: rest, s => do
    let name ← name
    if r.names.contains name then readEntries r other rest (← r.read name n s.1, s.2)
    else readEntries r other rest (s.1, ← other name n s.2)

/-- Read a whole record. -/
def decodeWith {ν : Type} [Source ν] (other : String → ν → Unit → Except Fault Unit)
    (r : Record ρ α) (n : ν) : Except Fault α := do
  match ← Source.fields n with
  | .named entries =>
    let (s, _) ← r.readEntries other entries (r.start, ())
    r.finish s
  | .listed values =>
    let (a, rest) ← r.listed values
    require rest.isEmpty
    return a

end Record

namespace Codec

variable {ρ : Type}

/-- A record that may hold other fields, which are passed over. -/
def record (r : Record ρ ρ) : Codec ρ where
  decode n := r.decodeWith (fun _ n _ => Source.skip n) n
  encode a := .record (r.write a)

/-- A record that holds no other field. -/
def strictRecord (r : Record ρ ρ) : Codec ρ where
  decode n := r.decodeWith (fun name _ _ => .error (.unknownField name)) n
  encode a := .record (r.write a)

end Codec

end PackageDepot.Wire
