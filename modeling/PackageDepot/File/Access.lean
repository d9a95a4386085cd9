import PackageDepot.File.Tree

/-!
# Access to files

What a command does to files is written against `Access`, whatever the files are kept in. A `Tree` that
is passed along as a state is one interpretation; another one is the file system of the machine.
-/

namespace PackageDepot.File

/-- The ways in which a command reads and writes files. -/
class Access (m : Type → Type) where
  /-- Read a file. -/
  read : (path : String) → m (Except Fault String)
  /-- Write a file, over the text that it had. -/
  write : (path text : String) → m (Except Fault Unit)
  /-- Have a file be there. -/
  touch : (path : String) → m (Except Fault Unit)
  /-- Make a directory and those above it, unless they are there. -/
  ensureDirectories : (path : String) → m (Except Fault Unit)

/-- Change a tree that is passed along. -/
def Tree.update (f : Tree → Except Fault Tree) : StateM Tree (Except Fault Unit) := fun t =>
  t.settle (f t)

instance : Access (StateM Tree) where
  read path := fun t => (t.read path, t)
  write path text := Tree.update fun t => t.write path text
  touch path := Tree.update fun t => t.touch path
  ensureDirectories path := fun t => t.makeDirectories path

end PackageDepot.File
