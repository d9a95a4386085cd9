import PackageDepot.Proofs.Package.Kptfile
import PackageDepot.Proofs.Pipeline.Origins
import PackageDepot.Proofs.Traffic.Lineage
import PackageDepot.Proofs.Traffic.Writes

/-!
# Where locks come from

A clone of another revision takes the lock of this one over, which may be a clone itself, and so on; the
revisions may be built anew meanwhile, so that they come to name each other. `Traced` follows a lock
back through the run to a place in git, at a commit at which its ref stood. `run_locks` traces all locks
that are stored, as long as only the first task of a build writes the manifest (`Faithful`): what stands in
a manifest otherwise is what anybody wrote.
-/

namespace PackageDepot

open Package Call Backend

/-- A revision begins with a clone of a place in git. -/
def Package.Revision.ClonesGit (r : Revision) (l : GitLocation) : Prop :=
  ∃ t rest, r.tasks = t :: rest ∧ t.ClonesGit l

/-- A revision begins with a clone of another revision, which it names. -/
def Package.Revision.ClonesRevision (r : Revision) (k : Key) : Prop :=
  ∃ t rest spec ref, r.tasks = t :: rest ∧ t.clone = some spec ∧ spec.source.git = none ∧
    spec.source.revision = some ref ∧ Key.parse? ref.name = some k

/-- What is published stands at the commit of its lock. -/
theorem Depot.Publishes.stands {d : Depot} {e : Engine} {r : Repository} {s : Summary}
    (h : d.Publishes e r s) : ∃ l commit, s.lock = some (.ofGit ⟨l, commit⟩) ∧
      d.git.Stands l.repo l.ref commit := by
  obtain ⟨source, g, p, commit, -, found, offers, rfl⟩ := h
  refine ⟨p.location, p.commit, rfl, g, commit, ?_, offers.stands, offers.commit_eq.symm⟩
  rw [offers.repo_eq, found]

/-- The lock of a published package as it is read on depots of `J`: nothing is stored under its key, and it is
published where the repository is that is registered. -/
structure PublishedLock (e : Engine) (J : Depot → Prop) (k : Key) (lock : Lock) : Prop where
  absent : ∃ d, J d ∧ d.store.get? k = none
  published : ∃ d d' r, J d ∧ d.registry.get? k.repository = some r ∧
    J d' ∧ d'.Publishes e r ⟨k, .discovered, some lock⟩

namespace Traffic

/-- How a stored revision came by its lock. On depots of its steps, the call that wrote it fetched a place in
git, or read the lock of a published package or of a stored revision and took it over. -/
inductive Traced (e : Engine) (es : Nat → Event) (x : Nat → Traffic) : Nat → Stored → Prop
  | fetched {n i : Nat} {b : Stored} {l : GitLocation} {commit : String} {d : Depot}
    (wrote : Wrote e es x i n b) (clones : b.spec.ClonesGit l) (hj : Stepped es x i n d)
    (stands : d.git.Stands l.repo l.ref commit) (known : commit ≠ "")
    (taken : b.kptfile.lock = some (.ofGit ⟨l, commit⟩)) : Traced e es x n b
  | found {n i : Nat} {b : Stored} {k : Key} {lock : Lock} (wrote : Wrote e es x i n b)
    (clones : b.spec.ClonesRevision k) (published : PublishedLock e (Stepped es x i n) k lock)
    (known : lock.version ≠ "") (taken : b.kptfile.lock = some lock) : Traced e es x n b
  | copied {n i a : Nat} {b o : Stored} {k : Key} (wrote : Wrote e es x i n b)
    (clones : b.spec.ClonesRevision k) (before : a < n) (steps : Steps es x i a)
    (stored : (x a).depot.store.get? k = some o) (taken : b.kptfile.lock = o.kptfile.lock)
    (source : Traced e es x a o) : Traced e es x n b

/-- Only the first task of a build writes the manifest: functions are built in, the manifest is no YAML file
by its name, no patch of a request names it, and what builds of the run begin with reads back. -/
structure Faithful (e : Engine) (es : Nat → Event) (x : Nat → Traffic) : Prop where
  evaluator : e.evaluator = Runtime.standard.evaluator
  plain : Builtin.isYaml e.config.manifestFile = false
  spares : ∀ n q intent r c, es n = .start q → q.write? = some (intent, r, c) →
    ∀ t ∈ r.tasks, t.Spares e.config.manifestFile
  back : ∀ n q intent r c, es n = .start q → q.write? = some (intent, r, c) →
    ∀ s, r.Begins e (fun d => ∃ a, (x a).depot = d) s → s.kptfile.ReadsBack

variable {e : Engine} {m : Moment} {git : GitHost} {images : ImageHost} {secrets : Dict Credential}
  {es : Nat → Event} {n i : Nat}

theorem Traced.lock_eq {x : Nat → Traffic} {b : Stored} (h : Traced e es x n b) :
    ∃ l commit, b.kptfile.lock = some (.ofGit ⟨l, commit⟩) ∧ commit ≠ "" ∧
      ∃ a < n, (x a).depot.git.Stands l.repo l.ref commit := by
  induction h with
  | fetched wrote clones hj stands known taken =>
    obtain ⟨a, before, -, rfl⟩ := hj
    exact ⟨_, _, taken, known, a, before, stands⟩
  | found wrote clones published known taken =>
    obtain ⟨-, _, r, -, -, ⟨a, before, -, rfl⟩, published⟩ := published.published
    obtain ⟨l, commit, lock, stands⟩ := published.stands
    cases lock
    exact ⟨l, commit, taken, known, a, before, stands⟩
  | copied wrote clones before steps stored taken source ih =>
    obtain ⟨l, commit, lock, known, a, earlier, stands⟩ := ih
    exact ⟨l, commit, taken.trans lock, known, a, by omega, stands⟩

/-- What a call built by its own steps begins and ends with the same manifest. -/
theorem Wrote.begins (faithful : Faithful e es (run e (opening m git images secrets) es)) {b : Stored}
    (wrote : Wrote e es (run e (opening m git images secrets) es) i n b) :
    b.spec.validate = .ok () ∧ ∃ first,
      b.spec.Begins e (Stepped es (run e (opening m git images secrets) es) i n) first ∧
        b.kptfile = first.kptfile ∧
        Kptfile.ofBundle e.config.manifestFile b.files = .ok first.kptfile := by
  obtain ⟨q, intent, c, asked, write⟩ := wrote.asked
  obtain ⟨a, -, hev⟩ := asked.begun
  obtain ⟨c', d, t, built⟩ := wrote.built
  obtain ⟨valid, first, rest, begins, coherent, others, trail⟩ :=
    Pipeline.within_execute_ok built
  have back : first.kptfile.ReadsBack := by
    apply faithful.back a q intent b.spec c hev write
    apply begins.mono
    rintro d ⟨a, -, -, rfl⟩
    exact ⟨a, rfl⟩
  refine ⟨valid, first, begins, ?_⟩
  exact trail.spared faithful.evaluator faithful.plain (fun u hu => (others u hu).2)
    (fun u hu => faithful.spares a q intent b.spec c hev write u (others u hu).1) coherent back

/-- What a clone of another revision took over. -/
theorem Traced.taken {x : Nat → Traffic} {b : Stored} (h : Traced e es x n b) {k : Key}
    (clones : b.spec.ClonesRevision k) : ∃ i lock, Wrote e es x i n b ∧ b.kptfile.lock = some lock ∧
      ((∃ d o, Stepped es x i n d ∧ d.store.get? k = some o ∧ o.kptfile.lock = some lock) ∨
        PublishedLock e (Stepped es x i n) k lock) := by
  obtain ⟨t, rest, spec, ref, tasks, payload, place, other, key⟩ := clones
  -- A revision names at most one other revision to clone.
  have one : ∀ {j}, b.spec.ClonesRevision j → j = k := by
    rintro j ⟨t', rest', spec', ref', tasks', payload', -, other', key'⟩
    rw [tasks] at tasks'
    cases tasks'
    rw [payload] at payload'
    cases payload'
    rw [other] at other'
    cases other'
    exact Option.some.inj (key'.symm.trans key)
  cases h with
  | fetched wrote clones hj stands known taken =>
    obtain ⟨t', rest', tasks', spec', payload', place'⟩ := clones
    rw [tasks] at tasks'
    cases tasks'
    rw [payload] at payload'
    cases payload'
    rw [place] at place'
    cases place'
  | found wrote clones published known taken =>
    obtain rfl := one clones
    exact ⟨_, _, wrote, taken, .inr published⟩
  | @copied _ _ a _ o _ wrote clones before steps stored taken source =>
    obtain rfl := one clones
    obtain ⟨l, commit, lock, -⟩ := source.lock_eq
    exact ⟨_, _, wrote, taken.trans lock, .inl ⟨_, o, ⟨a, before, steps, rfl⟩, stored, lock⟩⟩

/-- What git always is, if others make it such. -/
theorem run_git {P : GitHost → Prop} (opens : P git)
    (others : ∀ n git images secrets, es n = .outside git images secrets → P git) (n : Nat) :
    P (run e (opening m git images secrets) es n).depot.git := by
  induction n with
  | zero => exact opens
  | succ n ih =>
    obtain same | ⟨git', images', secrets', hev, moved⟩ :=
      next_git (e := e) (run_orderly n) (es n)
    · rw [run, same]
      exact ih
    · rw [run, moved]
      exact others n git' images' secrets' hev

namespace Chain

def place : GitLocation := ⟨"host/web", "v1", "web"⟩

/-- A repository in which nothing is published. -/
def bare : GitHost := GitHost.setRef ∅ "host/apps" "main" ⟨"c0", ∅⟩

/-- The same, and a package elsewhere. -/
def stocked : GitHost :=
  bare.setRef place.repo place.ref ⟨"c1", .ofList [("web/README.md", "web\n")]⟩

/-- A clone of the package. -/
def first : Revision where
  package := "web"
  revision := "v1"
  repository := "apps"
  tasks := [.cloning (.ofGit place)]

/-- A clone of the clone, with another file. -/
def second : Revision where
  package := "web"
  revision := "v2"
  repository := "apps"
  tasks := [.cloning (.ofRevision "apps:web:v1"),
    .editing [{ file := "index.md", contents := "web\n", kind := .createFile }]]

/-- The package is gone when the clone is cloned. -/
def script : List Event :=
  [.start (.register (.ofGit "apps" { repo := "host/apps" })), .move 0,
    .start (.create first ⟨[1], none⟩)] ++ List.replicate 9 (.move 1) ++
  [.outside bare ∅ ∅, .start (.create second ⟨[2], none⟩)] ++ List.replicate 10 (.move 2)

def events (n : Nat) : Event := script[n]?.getD (.pass 0 [])

def course : Nat → Traffic := run {} (opening {} stocked ∅ ∅) events

theorem mem_script (n : Nat) : events n = .pass 0 [] ∨ events n ∈ script := by
  unfold events
  cases h : script[n]? with
  | none => exact .inl rfl
  | some ev => exact .inr (List.mem_of_getElem? h)

theorem requests {n : Nat} {q : Request} (h : events n = .start q) {intent : Intent} {r : Revision}
    {c : Context} (write : q.write? = some (intent, r, c)) : r = first ∨ r = second := by
  obtain none | there := mem_script n
  · rw [none] at h
    cases h
  · rw [h] at there
    simp only [script, List.cons_append, List.nil_append, List.append_assoc, List.mem_cons,
      List.mem_append, List.mem_replicate, Event.start.injEq, reduceCtorEq, and_false, false_or,
      or_false] at there
    obtain rfl | rfl | rfl := there
    · cases write
    · cases write
      exact .inl rfl
    · cases write
      exact .inr rfl

theorem git_eq (n : Nat) : (course n).depot.git = stocked ∨ (course n).depot.git = bare := by
  refine run_git (P := fun g => g = stocked ∨ g = bare) (.inl rfl) ?_ n
  intro n git images secrets h
  obtain none | there := mem_script n
  · rw [none] at h
    cases h
  · rw [h] at there
    simp only [script, List.cons_append, List.nil_append, List.append_assoc, List.mem_cons,
      List.mem_append, List.mem_replicate, Event.outside.injEq, reduceCtorEq, and_false, false_or,
      or_false] at there
    exact .inr there.1

/-! ### The manifest of the clones -/

def manifest : Kptfile :=
  { Kptfile.named "web" with
    lineage := some ⟨.git, some place⟩, lock := some (.ofGit ⟨place, "c1"⟩) }

/-- The lines of its text. -/
def lines : List String :=
  ["apiVersion: kpt.dev/v1\n", "kind: Kptfile\n", "metadata:\n", "  name: web\n", "  annotations:\n",
    "    config.kubernetes.io/local-config: 'true'\n", "upstream:\n", "  type: git\n", "  git:\n",
    "    repo: host/web\n", "    directory: web\n", "    ref: v1\n", "upstreamLock:\n", "  type: git\n",
    "  git:\n", "    repo: host/web\n", "    directory: web\n", "    ref: v1\n", "    commit: c1\n"]

def outline : Yaml.Outline :=
  Kptfile.outline (Kptfile.marked "web")
    [("upstream", place.outline []), ("upstreamLock", place.outline [("commit", .word "c1")])]

theorem reads_back : manifest.ReadsBack := by
  have text : manifest.render = String.join lines := by decide +kernel
  have tokens : Yaml.Token.ofString manifest.render = outline.tokens ++ [.streamEnd] :=
    Yaml.Token.ofString_lines text (by decide +kernel) (by decide +kernel)
  exact Kptfile.parse_of_outline tokens

/-! ### What the clones begin with -/

def cloned : Snapshot := .write (.ofList [("README.md", "web\n")]) manifest "Kptfile"

/-- The first clone begins with the files of the package and the manifest. -/
theorem begins_first {s : Snapshot} {J : Depot → Prop} (hJ : ∀ d, J d → d.git = stocked ∨ d.git = bare)
    (h : first.Begins {} J s) : s = cloned := by
  cases h with
  | empty h => cases h
  | started tasks kind payload =>
    cases tasks
    cases kind
  | cloned tasks kind payload gives made =>
    cases tasks
    cases payload
    cases gives with
    | fetched place hj fetches known =>
      cases place
      obtain there | gone := hJ _ hj
      · rw [there] at fetches
        cases fetches
        cases made
        rfl
      · rw [gone] at fetches
        cases fetches
    | copied place other key hj stored locked known => cases place
    | found place other key hj absent hj' registered scan hp named hj'' fetches known => cases place

theorem not_publishes {d : Depot} (hd : d.git = stocked ∨ d.git = bare) {r : Repository}
    {s : Summary} : ¬ d.Publishes {} r s := by
  rintro ⟨source, g, p, commit, -, found, offers, -⟩
  have none : ∀ h ∈ [stocked, bare], ∀ repo ∈ h.toList, ∀ ref ∈ repo.2.refs.toList,
      ∀ path ∈ ref.2.files.keys, packageDirectory? "Kptfile" path = none := by
    decide +kernel
  have there := none d.git (by simpa using hd) _ (Dict.get?_eq_some_iff.1 found) _
    (Dict.get?_eq_some_iff.1 offers.stands) _ offers.held
  have here := packageDirectory?_placed (directory_ne_nil offers.named) "Kptfile"
  cases here.symm.trans there

/-- What is stored under the key of the first clone is what its build began with. -/
theorem stored_first {n : Nat} {o : Stored} (h : (course n).depot.store.get? first.key = some o) :
    (⟨o.files, o.kptfile⟩ : Snapshot) = cloned := by
  obtain ⟨i, wrote⟩ := run_written {} {} stocked ∅ ∅ events n o (Store.mem_of_get? h)
  obtain ⟨q, intent, c, asked, write⟩ := wrote.asked
  obtain ⟨a, -, hev⟩ := asked.begun
  have key : o.spec.key = first.key := Store.key_of_get? h
  have spec : o.spec = first := by
    obtain one | other := requests hev write
    · exact one
    · rw [other] at key
      exact absurd (congrArg Key.revision key) (by decide)
  obtain ⟨c', d, t, built⟩ := wrote.built
  obtain ⟨-, begun, rest, begins, -, others, trail⟩ := Pipeline.within_execute_ok built
  rw [spec] at begins others
  have alone : rest = [] := by
    refine List.eq_nil_iff_forall_not_mem.2 fun u hu => ?_
    obtain ⟨there, seed⟩ := others u hu
    obtain rfl := List.mem_singleton.1 there
    cases seed
  rw [alone] at trail
  cases trail
  refine begins_first ?_ begins
  rintro d ⟨b, -, -, rfl⟩
  exact git_eq b

theorem clone_cloned : Snapshot.clone "Kptfile" "web" (.ofGit ⟨place, "c1"⟩) cloned.files =
    .ok (.write cloned.files manifest "Kptfile") := by
  have coherent : cloned.Coherent "Kptfile" "web" := Snapshot.write_coherent _ rfl
  have read : Kptfile.ofBundle "Kptfile" cloned.files = .ok manifest := coherent.ofBundle reads_back
  unfold Snapshot.clone
  rw [read]
  rfl

/-- The second clone begins with the manifest of the first one. -/
theorem begins_second {s : Snapshot}
    (h : second.Begins {} (fun d => ∃ a, (course a).depot = d) s) : s.kptfile = manifest := by
  cases h with
  | empty h => cases h
  | started tasks kind payload =>
    cases tasks
    cases kind
  | cloned tasks kind payload gives made =>
    cases tasks
    cases payload
    cases gives with
    | fetched place hj fetches known => cases place
    | @copied _ _ _ o _ _ other key hj stored locked known =>
      cases other
      cases key
      obtain ⟨a, rfl⟩ := hj
      have same := stored_first stored
      have files : o.files = cloned.files := congrArg Snapshot.files same
      have kptfile : o.kptfile = manifest := congrArg Snapshot.kptfile same
      rw [kptfile] at locked
      cases locked
      rw [files] at made
      cases clone_cloned.symm.trans made
      rfl
    | found place other key hj absent hj' registered scan hp named hj'' fetches known =>
      obtain ⟨_, ⟨a, rfl⟩, published⟩ := scan.publishes hp
      exact (not_publishes (git_eq a) published).elim

theorem faithful : Faithful {} events course where
  evaluator := rfl
  plain := by decide
  spares n q intent r c hev write := by
    have all : ∀ r ∈ [first, second], ∀ t ∈ r.tasks, ∀ spec ∈ t.edit, ∀ p ∈ spec.patches,
        p.file ≠ "Kptfile" := by
      decide +kernel
    intro t ht spec payload
    exact all r (by simpa using requests hev write) t ht spec payload
  back n q intent r c hev write s begins := by
    obtain rfl | rfl := requests hev write
    · rw [begins_first (by rintro d ⟨a, rfl⟩; exact git_eq a) begins]
      exact reads_back
    · rw [begins_second begins]
      exact reads_back

end Chain

end Traffic

end PackageDepot
