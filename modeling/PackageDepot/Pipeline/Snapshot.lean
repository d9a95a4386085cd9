import PackageDepot.Error

/-!
# Snapshots

A snapshot is a bundle with its manifest, as they stand between two tasks.
-/

namespace PackageDepot.Package

/-- A bundle and the manifest that it holds. -/
structure Snapshot where
  files : Bundle
  kptfile : Kptfile

/-- The snapshot of a bundle with a manifest, which is written at a path. -/
def Snapshot.write (files : Bundle) (kptfile : Kptfile) (path : String) : Snapshot :=
  ⟨files.insert path kptfile.render, kptfile⟩

end PackageDepot.Package
