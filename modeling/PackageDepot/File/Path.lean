import PackageDepot.Text.Cut

/-!
# Paths of files

A path is a text with names between slashes. It is absolute if it begins with a slash. Within a path an
empty name and the name `.` stand for nothing, and `..` stands for the directory above.

`parent?` is shorter than its path (`length_lt_of_parent?`), so going up ends.
-/

namespace PackageDepot.File.Path

/-- The path begins at the root. -/
def isAbsolute (path : String) : Bool := path.toList.head? = some '/'

/-- A path from a directory on. An absolute path leads to its own place. -/
def join (directory path : String) : String :=
  if isAbsolute path then path
  else if directory.isEmpty || directory.toList.getLast? = some '/' then directory ++ path
  else directory ++ "/" ++ path

/-- Every name of the path goes down by one directory: it does not begin at the root or with `.`, and it
never goes up. -/
def goesDown (path : String) : Bool :=
  let names := Text.split '/' path.toList
  !isAbsolute path && names.head? ≠ some ['.'] && !names.contains ['.', '.']

/-- Leave out what stands for nothing at the end of a path, which is given from its end on. The slash of
the root stays. -/
def trimEnding : List Char → List Char
  | '/' :: rest => if rest.isEmpty then ['/'] else trimEnding rest
  | '.' :: '/' :: rest => trimEnding ('/' :: rest)
  | s => s

theorem length_trimEnding_le (s : List Char) : (trimEnding s).length ≤ s.length := by
  fun_induction trimEnding s with
  | case1 rest h => simp
  | case2 rest h ih => exact Nat.le_succ_of_le ih
  | case3 rest ih => exact Nat.le_succ_of_le ih
  | case4 s h h' => exact Nat.le_refl _

/-- The directory that a path leads to a place in. A path without a name has none. -/
def parentOf? (path : List Char) : Option (List Char) :=
  match trimEnding path.reverse with
  | [] => none
  | c :: rest =>
    if c = '/' then none
    else some (trimEnding (rest.dropWhile (· != '/'))).reverse

theorem length_lt_of_parentOf? {path parent : List Char} (h : parentOf? path = some parent) :
    parent.length < path.length := by
  rw [parentOf?] at h
  split at h
  · cases h
  · next c rest hs =>
    split at h
    · cases h
    · cases h
      have h1 := length_trimEnding_le (rest.dropWhile (· != '/'))
      have h2 := (List.dropWhile_sublist (· != '/') (l := rest)).length_le
      have h3 := length_trimEnding_le path.reverse
      rw [hs] at h3
      simp only [List.length_cons, List.length_reverse] at h3 ⊢
      omega

/-- The directories above a path, from the path itself on up to the last one that has a name. -/
def ascent (path : List Char) : List (List Char) :=
  if path.isEmpty then []
  else
    match _h : parentOf? path with
    | some parent => path :: ascent parent
    | none => [path]
termination_by path.length
decreasing_by exact length_lt_of_parentOf? _h

/-- The directory that a path leads to a place in. -/
def parent? (path : String) : Option String := (parentOf? path.toList).map String.ofList

end PackageDepot.File.Path
