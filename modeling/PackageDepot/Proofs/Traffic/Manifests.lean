import PackageDepot.Proofs.Package.Kptfile
import PackageDepot.Proofs.Pipeline.Manifest
import PackageDepot.Proofs.Traffic.Built
import PackageDepot.Proofs.Traffic.Reads
import PackageDepot.Proofs.Traffic.Writes

/-!
# Bundles and manifests do not drift apart

A stored revision keeps its manifest beside its bundle, so that readers need not parse it again.
`manifests_agree` says that this is safe: what a build answers, and so what traffic leaves in a store, is a
bundle that holds the manifest beside it, under the name of the package. A reader that takes the manifest
from beside the bundle and one that parses the bundle tell the same.
-/

namespace PackageDepot

open Package Call Backend

/-- A bundle holds the manifest that is kept beside it, which is that of the package. -/
structure Agrees (e : Engine) (package : String) (files : Bundle) (k : Kptfile) : Prop where
  /-- The file was rendered from the manifest, or the manifest was read from the file. -/
  text : ∃ text, files.get? e.config.manifestFile = some text ∧
    (text = k.render ∨ Kptfile.parse text = .ok k)
  /-- The file reads as exactly this manifest. -/
  parsed : k.ReadsBack → Kptfile.ofBundle e.config.manifestFile files = .ok k
  named : k.name = package

theorem Package.Snapshot.Coherent.agrees {e : Engine} {package : String} {s : Snapshot}
    (h : s.Coherent e.config.manifestFile package) : Agrees e package s.files s.kptfile :=
  ⟨h.text, h.ofBundle, h.named⟩

/-- What was built agrees with its request. -/
theorem Stored.Built.agrees {e : Engine} {J : Depot → Prop} {b : Stored} (h : b.Built e J) :
    Agrees e b.spec.package b.files b.kptfile := by
  obtain ⟨c, d, t, built⟩ := h
  exact (Pipeline.execute_coherent built).agrees

/-- What a clone gets of a revision with these files and this lock, which has to have a commit. -/
def Resolve.unlock (k : Key) (files : Bundle) : Option Lock → Except Error Resolved
  | some lock =>
    if lock.version.isEmpty then .error (.resolution (.revisionUnlocked k)) else .ok ⟨lock, files⟩
  | none => .error (.resolution (.revisionUnlocked k))

theorem Resolve.revision_eq (e : Engine) (k : Key) (c : Context) : revision e k c = (do
    let content ← Call.mapError
      (fun err => if err.kind = .notFound then .resolution (.revisionMissing k) else err)
      (Index.lookup e k c)
    Call.ofExcept (unlock k content.files content.lock)) := by
  unfold revision
  apply bind_congr
  rintro ⟨files, _ | lock⟩
  · rfl
  · dsimp only [unlock]
    split
    · rfl
    · rfl

/-- A clone of a stored revision gets its files, with the lock of its manifest. -/
theorem Resolve.alone_revision_iff {M : Moment → Prop} {d t : Depot} {k : Key} {b : Stored}
    (stored : d.store.get? k = some b) {e : Engine} {c : Context} {a : Except Error Resolved} :
    Routine.Alone M (revision e k c).run d a t ↔
      (∃ m, M m) ∧ a = unlock k b.files b.kptfile.lock ∧ t = d := by
  have content (a : Except Error RevisionContent) (u : Depot) :
      Routine.Alone M (Index.lookup e k c).run d a u ↔
        (∃ m, M m) ∧ a = .ok ⟨b.files, b.kptfile.lock⟩ ∧ u = d := by
    rw [Index.lookup, alone_read_bind_iff, stored]
    exact and_congr_right fun _ => ends_pure_iff
  rw [revision_eq, Routine.Alone, ends_bind_iff]
  constructor
  · rintro (⟨found, u, hl, h⟩ | ⟨err, hl, -⟩)
    · obtain ⟨r, hr, hf⟩ := ends_mapError_iff.1 hl
      obtain ⟨hM, rfl, rfl⟩ := (content r u).1 hr
      cases hf
      exact ⟨hM, ends_ofExcept_iff.1 h⟩
    · obtain ⟨r, hr, hf⟩ := ends_mapError_iff.1 hl
      obtain ⟨-, rfl, -⟩ := (content r t).1 hr
      cases hf
  · rintro ⟨hM, h⟩
    exact .inl ⟨⟨b.files, b.kptfile.lock⟩, d,
      ends_mapError_iff.2 ⟨_, (content _ d).2 ⟨hM, rfl, rfl⟩, rfl⟩, ends_ofExcept_iff.2 h⟩

/-- What is told of the manifest of a revision is that of its bundle. -/
structure ManifestsAgree (e : Engine) : Prop where
  /-- A build that comes to a snapshot, whatever the evaluator answers and others do meanwhile. -/
  built : ∀ r c env M d s d', Routine.Ends env M (Pipeline.execute e r c).run d (.ok s) d' →
    Agrees e r.package s.files s.kptfile
  /-- What is in the store after any traffic. -/
  stored : ∀ m git images secrets es n,
    (Traffic.run e (.opening m git images secrets) es n).depot.Stores fun b =>
      Agrees e b.spec.package b.files b.kptfile
  /-- A reader of a stored revision gets the manifest that is kept. -/
  get : ∀ d k b, d.store.get? k = some b → ∀ M c a t,
    Routine.Alone M (Service.get e k c).run d a t ↔
      (∃ m, M m) ∧ a = .ok ⟨.ofKey k b.files, some b.kptfile⟩ ∧ t = d
  /-- So does one among others, which may come to find the revision only after a first look, and parses
  the manifest then. -/
  read : ∀ m git images secrets es n i k c v,
    (Traffic.run e (.opening m git images secrets) es n).At i (.get k c) (.done (.ok (.view v))) →
    ∃ a < n, es a = .move i ∧ ∀ b,
      (Traffic.run e (.opening m git images secrets) es a).depot.store.get? k = some b →
        v.files = .ofKey k b.files ∧ (b.kptfile.ReadsBack → v.kptfile = some b.kptfile)
  /-- A listing shows the lock of the manifest that is kept. -/
  listed : ∀ d k b g, d.Tidy → d.store.get? k = some b → d.registry.get? k.repository = some g →
    ∀ M c entries t, Routine.Alone M (Service.list e {} c).run d (.ok entries) t →
      entries.filter (fun s => s.key = k) = [⟨k, .created, b.kptfile.lock⟩]
  /-- A clone of the revision takes this lock over. -/
  cloned : ∀ d k b, d.store.get? k = some b → ∀ M c a t,
    Routine.Alone M (Resolve.revision e k c).run d a t ↔
      (∃ m, M m) ∧ a = Resolve.unlock k b.files b.kptfile.lock ∧ t = d

namespace Traffic

/-- **Bundles and manifests do not drift apart**, in any build and in any store. -/
theorem manifests_agree (e : Engine) : ManifestsAgree e where
  built _ _ _ _ _ _ _ h := (Pipeline.execute_coherent h).agrees
  stored m git images secrets es n b hb := (run_built e m git images secrets es n b hb).agrees
  get _ _ _ stored _ _ _ _ := Service.alone_get_iff stored
  read m git images secrets es n i k c v h := by
    obtain ⟨a, ha, hi, answer⟩ := At.read (Request.get_follows e k c) h
    refine ⟨a, ha, hi, fun b stored => ?_⟩
    rw [stored] at answer
    obtain ⟨missed, answer, -⟩ := answer
    cases answer
    refine ⟨rfl, fun back => ?_⟩
    cases missed with
    | false => rfl
    | true =>
      have built := run_built e m git images secrets es a b (Store.mem_of_get? stored)
      have parsed := built.agrees.parsed back
      show (Kptfile.ofBundle e.config.manifestFile b.files).toOption = _
      rw [parsed]
      rfl
  listed d k b g tidy stored found M c entries t h := by
    obtain ⟨-, ⟨shown, hs, filter⟩ | ⟨err, hs, -⟩⟩ := Index.alone_list tidy stored found h
    · cases hs
      rw [filter, Stored.summary, Store.key_of_get? stored]
    · cases hs
  cloned _ _ _ stored _ _ _ _ := Resolve.alone_revision_iff stored

end Traffic

/-- What is assumed of a rendered manifest holds of that of a new package. -/
example : (Kptfile.named "web").ReadsBack := by
  have text : (Kptfile.named "web").render =
      "apiVersion: kpt.dev/v1\nkind: Kptfile\nmetadata:\n  name: web\n" ++
        "  annotations:\n    config.kubernetes.io/local-config: 'true'\n" := by
    decide +kernel
  have tokens : Yaml.Token.ofString (Kptfile.named "web").render =
      (Kptfile.outline (Kptfile.marked "web") []).tokens ++ [.streamEnd] := by
    rw [text]
    exact Yaml.Token.ofString_eq (by decide +kernel) (by decide +kernel)
  exact Kptfile.parse_of_outline tokens

end PackageDepot
