import PackageDepot.Dict
import PackageDepot.File.Path

/-!
# Trees of files

A `Tree` holds files and directories by the names on the way from the root to them. Paths are followed
name by name, so that `..` is the directory above the one that was reached, and each name on the way has
to be a directory that is there.
-/

namespace PackageDepot.File

/-- Why a file is not read or written. -/
inductive Fault
  | notFound
  | alreadyThere
  | notDirectory
  | isDirectory
  | nameTooLong
  | zeroByte
  /-- Another reason, as the system gives it. -/
  | other (text : String)
  deriving DecidableEq, Repr

/-- The text that reports a fault. -/
def Fault.message : Fault → String
  | .notFound => "No such file or directory (os error 2)"
  | .alreadyThere => "File exists (os error 17)"
  | .notDirectory => "Not a directory (os error 20)"
  | .isDirectory => "Is a directory (os error 21)"
  | .nameTooLong => "File name too long (os error 36)"
  | .zeroByte => "file name contained an unexpected NUL byte"
  | .other text => text

/-- What stands at a place. -/
inductive Entry
  | file (text : String)
  | directory
  deriving DecidableEq, Repr

/-- A place: the names on the way from the root to it. -/
abbrev Place := List String

/-- Files and directories by their places. The root is a directory that is always there. -/
structure Tree where
  entries : List (Place × Entry) := []
  /-- The directory that relative paths begin at. -/
  current : Place := []
  deriving DecidableEq, Repr

namespace Tree

/-- What stands at a place. -/
def get? (t : Tree) (p : Place) : Option Entry :=
  if p.isEmpty then some .directory else t.entries.lookup p

/-- Put something at a place instead of what stands there. -/
def put (t : Tree) (p : Place) (e : Entry) : Tree :=
  { t with entries := (p, e) :: t.entries.filter (·.1 != p) }

theorem get?_put {t : Tree} {p : Place} (q : Place) (e : Entry) (h : p ≠ []) :
    (t.put p e).get? q = if q = p then some e else t.get? q := by
  by_cases hq : q = []
  · subst hq
    simp [get?, Ne.symm h]
  · by_cases hqp : q = p
    · simp [get?, put, hqp, h, Dict.lookup_cons_ite]
    · simp [get?, put, hq, hqp, Dict.lookup_cons_ite, Dict.lookup_filter_ne]

/-- The greatest number of bytes in a name. -/
def maxName : Nat := 255

/-- The greatest number of bytes in a path. -/
def maxPath : Nat := 4095

/-- Go from a directory on, by names each of which is a directory. -/
def walk (t : Tree) (at_ : Place) : List String → Except Fault Place
  | [] => .ok at_
  | name :: rest =>
    if name = "." then walk t at_ rest
    else if name = ".." then walk t at_.dropLast rest
    else if name.utf8ByteSize > maxName then .error .nameTooLong
    else
      match t.get? (at_ ++ [name]) with
      | none => .error .notFound
      | some (.file _) => .error .notDirectory
      | some .directory => walk t (at_ ++ [name]) rest

/-- Where a path leads. -/
inductive Target
  /-- A directory that is there, named by `.`, by `..` or as the root. -/
  | directory (place : Place)
  /-- A name in a directory that is there; `asDirectory` says that a slash follows the name. -/
  | named (place : Place) (name : String) (asDirectory : Bool)
  deriving DecidableEq, Repr

/-- The names in a path, without the empty ones. -/
def names (path : String) : List String :=
  ((Text.split '/' path.toList).filter fun n => !n.isEmpty).map String.ofList

/-- Find where a path leads. -/
def locate (t : Tree) (path : String) : Except Fault Target :=
  if path.toList.contains '\x00' then .error .zeroByte
  else if path.isEmpty then .error .notFound
  else if path.utf8ByteSize > maxPath then .error .nameTooLong
  else
    let start := if Path.isAbsolute path then [] else t.current
    let names := names path
    match names.getLast? with
    | none => .ok (.directory start)
    | some last =>
      if last = "." || last = ".." then (t.walk start names).map .directory
      else (t.walk start names.dropLast).map fun place =>
        .named place last (path.toList.getLast? = some '/')

/-- Read a file. -/
def read (t : Tree) (path : String) : Except Fault String := do
  match ← t.locate path with
  | .directory _ => .error .isDirectory
  | .named place name asDirectory =>
    if name.utf8ByteSize > maxName then .error .nameTooLong
    else
      match t.get? (place ++ [name]) with
      | none => .error .notFound
      | some .directory => .error .isDirectory
      | some (.file text) => if asDirectory then .error .notDirectory else .ok text

/-- Change a file, which is new if it is not there. `f` is given the text that it had. -/
def change (t : Tree) (path : String) (f : Option String → String) : Except Fault Tree := do
  match ← t.locate path with
  | .directory _ => .error .isDirectory
  | .named place name asDirectory =>
    if asDirectory then .error .isDirectory
    else if name.utf8ByteSize > maxName then .error .nameTooLong
    else
      match t.get? (place ++ [name]) with
      | some .directory => .error .isDirectory
      | some (.file text) => .ok (t.put (place ++ [name]) (.file (f (some text))))
      | none => .ok (t.put (place ++ [name]) (.file (f none)))

/-- Write a file, over the text that it had. -/
def write (t : Tree) (path text : String) : Except Fault Tree := t.change path fun _ => text

/-- Have a file be there, with the text that it had. -/
def touch (t : Tree) (path : String) : Except Fault Tree := t.change path fun text => text.getD ""

/-- Make a directory, which must not be there. -/
def makeDirectory (t : Tree) (path : String) : Except Fault Tree := do
  match ← t.locate path with
  | .directory _ => .error .alreadyThere
  | .named place name _ =>
    if name.utf8ByteSize > maxName then .error .nameTooLong
    else
      match t.get? (place ++ [name]) with
      | some _ => .error .alreadyThere
      | none => .ok (t.put (place ++ [name]) .directory)

/-- A directory stands where a path leads. -/
def isDirectory (t : Tree) (path : String) : Bool :=
  match t.locate path with
  | .ok (.directory _) => true
  | .ok (.named place name _) => t.get? (place ++ [name]) = some .directory
  | .error _ => false

/-- Make a directory unless it is there. -/
def ensureDirectory (t : Tree) (path : String) : Except Fault Tree :=
  match t.makeDirectory path with
  | .ok t => .ok t
  | .error e => if t.isDirectory path then .ok t else .error e

/-- What comes of a change. A tree that could not be changed stays as it is. -/
def settle (t : Tree) : Except Fault Tree → Except Fault Unit × Tree
  | .ok t' => (.ok (), t')
  | .error e => (.error e, t)

/-- Make the first of some directories, each of which is in the next one. The next ones are made only
where something on the way is missing, and stay there if the first one then fails. -/
def makeAscent (t : Tree) : List String → Except Fault Unit × Tree
  | [] => (.ok (), t)
  | path :: above =>
    match t.ensureDirectory path with
    | .error .notFound =>
      match t.makeAscent above with
      | (.ok (), t) => t.settle (t.ensureDirectory path)
      | (.error e, t) => (.error e, t)
    | r => t.settle r

/-- Make a directory and those above it, unless they are there. -/
def makeDirectories (t : Tree) (path : String) : Except Fault Unit × Tree :=
  t.makeAscent ((Path.ascent path.toList).map String.ofList)

/-- A tree in which a directory and those above it are there. -/
def ensureDirectories (t : Tree) (path : String) : Except Fault Tree :=
  match t.makeDirectories path with
  | (.ok (), t) => .ok t
  | (.error e, _) => .error e

/-- The files below a directory: their paths from there, with their texts. -/
def filesBelow (t : Tree) (p : Place) : List (String × String) :=
  t.entries.filterMap fun
    | (q, .file text) =>
      if p.isPrefixOf q then some ("/".intercalate (q.drop p.length), text) else none
    | (_, .directory) => none

end Tree

end PackageDepot.File
