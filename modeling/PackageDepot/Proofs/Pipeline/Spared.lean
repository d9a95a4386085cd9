import PackageDepot.Proofs.Pipeline.Lineage

/-!
# Tasks that leave the manifest alone

The built-in functions change YAML files only, and patches change the files that they name. So a manifest
that is no YAML file by its name, and that no patch names, stands at the end of a build as the first task
rendered it (`Trail.spared`), and reads as the same manifest.
-/

namespace PackageDepot

open Package Call Backend

namespace Builtin

theorem applyToFiles_cons (f : Builtin) (config : Dict String) (path text : String)
    (rest : List (String × String)) : f.applyToFiles config ((path, text) :: rest) =
      (if isYaml path then (f.applyToFile config text).mapError (.unreadableFile path)
        else .ok text) >>= fun text =>
      f.applyToFiles config rest >>= fun rest => .ok ((path, text) :: rest) := by
  rw [applyToFiles]
  split
  · rfl
  · rfl

/-- Changing files keeps their paths, and keeps those that are not YAML as they are. -/
theorem applyToFiles_ok {f : Builtin} {config : Dict String} {l l' : List (String × String)}
    (h : f.applyToFiles config l = .ok l') : l'.map Prod.fst = l.map Prod.fst ∧
      ∀ path text, isYaml path = false → (path, text) ∈ l → (path, text) ∈ l' := by
  induction l generalizing l' with
  | nil =>
    cases h
    exact ⟨rfl, fun _ _ _ h => h⟩
  | cons file rest ih =>
    obtain ⟨path, text⟩ := file
    rw [applyToFiles_cons] at h
    obtain ⟨text', changed, h⟩ := bind_eq_ok_iff.1 h
    obtain ⟨rest', others, h⟩ := bind_eq_ok_iff.1 h
    cases h
    obtain ⟨paths, kept⟩ := ih others
    refine ⟨congrArg (path :: ·) paths, fun p t plain hp => ?_⟩
    obtain same | hp := List.mem_cons.1 hp
    · cases same
      rw [if_neg (by simp [plain])] at changed
      cases changed
      exact List.mem_cons_self
    · exact List.mem_cons_of_mem _ (kept p t plain hp)

end Builtin

namespace Runtime

variable {runtime : Runtime} {image : String} {config : Dict String} {files files' : Bundle}

/-- An evaluation that succeeds runs a function on all files that has the configuration it needs. -/
theorem evaluate_ok (h : runtime.evaluate image config files = .ok files') :
    ∃ f l, runtime.get? (Image.functionName image) = some f ∧
      f.required.find? (fun key => !config.contains key) = none ∧
      f.applyToFiles config files.toList = .ok l ∧ files' = .ofList l := by
  unfold evaluate at h
  dsimp only at h
  split at h
  · cases h
  · next f found =>
    split at h
    · cases h
    · next configured =>
      cases applied : f.applyToFiles config files.toList with
      | error err =>
        rw [applied] at h
        cases h
      | ok l =>
        rw [applied] at h
        exact ⟨f, l, found, configured, applied, (Except.ok.inj h).symm⟩

/-- A function leaves a file as it is that is not YAML. -/
theorem get?_of_evaluate {path text : String} (h : runtime.evaluate image config files = .ok files')
    (plain : Builtin.isYaml path = false) (found : files.get? path = some text) :
    files'.get? path = some text := by
  obtain ⟨f, l, -, -, applied, rfl⟩ := evaluate_ok h
  obtain ⟨paths, kept⟩ := Builtin.applyToFiles_ok applied
  have distinct : (l.map Prod.fst).Nodup := paths ▸ files.keys_nodup
  apply (Dict.get?_ofList_eq_some_iff distinct).2
  exact kept path text plain (Dict.get?_eq_some_iff.1 found)

end Runtime

namespace Package

/-- The patches of a task do not name the file. -/
def Task.Spares (path : String) (t : Task) : Prop :=
  ∀ spec, t.edit = some spec → ∀ p ∈ spec.patches, p.file ≠ path

namespace Patch

variable {manifest path : String} {files files' : Bundle}

/-- A patch leaves the files as they are that it does not name. -/
theorem get?_of_apply {p : Patch} (h : p.apply manifest files = .ok files') (other : p.file ≠ path) :
    files'.get? path = files.get? path := by
  unfold apply at h
  split at h
  · cases h
  · cases h
  · cases h
  · split at h
    · cases h
    · cases h
      rw [Dict.get?_erase, if_neg other.symm]
  · cases h
    rw [Dict.get?_insert, if_neg other.symm]
  · cases h
    rw [Dict.get?_insert, if_neg other.symm]

theorem get?_of_applyAll {ps : List Patch} (h : applyAll manifest ps files = .ok files')
    (others : ∀ p ∈ ps, p.file ≠ path) : files'.get? path = files.get? path := by
  induction ps generalizing files with
  | nil =>
    cases h
    rfl
  | cons p rest ih =>
    obtain ⟨between, first, h⟩ := bind_eq_ok_iff.1 h
    rw [ih h fun q hq => others q (List.mem_cons_of_mem p hq),
      get?_of_apply first (others p List.mem_cons_self)]

end Patch

end Package

namespace Pipeline

variable {e : Engine} {name : String} {runtime : Runtime}

/-- A task that does not begin a package leaves the text of the manifest as it is, if functions are built
in. -/
theorem Makes.get?_eq {before after : Snapshot} {t : Task} (h : Makes e name (some before) t after)
    (evaluator : e.evaluator = runtime.evaluator)
    (plain : Builtin.isYaml e.config.manifestFile = false) (seed : t.isSeed = false)
    (spares : t.Spares e.config.manifestFile) {text : String}
    (found : before.files.get? e.config.manifestFile = some text) :
    after.files.get? e.config.manifestFile = some text := by
  cases h with
  | clone kind cloned => simp [Task.isSeed, kind] at seed
  | init kind payload => simp [Task.isSeed, kind] at seed
  | eval kind payload result evaluated =>
    rw [(Snapshot.evaluated_ok evaluated).1]
    rw [evaluator] at result
    exact Runtime.get?_of_evaluate (mapError_eq_ok_iff.1 result) plain found
  | edit kind payload edited =>
    rw [Patch.get?_of_applyAll (Snapshot.edited_ok edited).1 (spares _ payload), found]

/-- **Behind the first task the manifest stays**, if functions are built in and patches do not name it. -/
theorem Trail.spared {first last : Snapshot} {tasks : List Task}
    (h : Trail e name (some first) tasks (some last))
    (evaluator : e.evaluator = runtime.evaluator)
    (plain : Builtin.isYaml e.config.manifestFile = false)
    (seeds : ∀ t ∈ tasks, t.isSeed = false)
    (spares : ∀ t ∈ tasks, t.Spares e.config.manifestFile)
    (coherent : first.Coherent e.config.manifestFile name) (back : first.kptfile.ReadsBack) :
    last.kptfile = first.kptfile ∧
      Kptfile.ofBundle e.config.manifestFile last.files = .ok first.kptfile := by
  induction tasks generalizing first with
  | nil =>
    cases h
    exact ⟨rfl, coherent.ofBundle back⟩
  | cons t rest ih =>
    cases h with
    | @cons _ _ after _ _ makes behind =>
      have seed := seeds t List.mem_cons_self
      obtain ⟨text, found, -⟩ := coherent.text
      have same : after.files.get? e.config.manifestFile = first.files.get? e.config.manifestFile := by
        rw [makes.get?_eq evaluator plain seed (spares t List.mem_cons_self) found, found]
      have kept := makes.kept seed coherent back same
      have onward := makes.coherent fun s hs => Option.some.inj hs ▸ coherent
      rw [← kept]
      exact ih behind (fun u hu => seeds u (List.mem_cons_of_mem t hu))
        (fun u hu => spares u (List.mem_cons_of_mem t hu)) onward (kept ▸ back)

end Pipeline

end PackageDepot
