import PackageDepot.Proofs.Pipeline.Building
import PackageDepot.Proofs.Pipeline.Stages
import PackageDepot.Proofs.Service.Prompt
import PackageDepot.Proofs.Traffic.Built
import PackageDepot.Proofs.Traffic.Writes

/-!
# Writes in contexts that are interrupted already

A context is asked at scattered points: by the scan of a creation, and where a task is begun. So a
creation never commits in a context that was interrupted before, nor does an update that has tasks
(`write_dead`, `ends_write_dead`). An update without tasks comes past no such point. It commits whatever its
context is (`update_bare`, `dead_update_commits`), unlike a creation with the same tasks and an update with
the init that an empty list of tasks stands for. `dead_contexts` is the statement for all of these.
-/

namespace PackageDepot

open Package Call Backend

namespace Call

variable {α β : Type} {M : Moment → Prop} {Q : Except Error α → Depot → Prop} {d : Depot}

/-- The call has failed, and the depot is as it was. -/
def Refused (d : Depot) (a : Except Error α) (t : Depot) : Prop := (∃ err, a = .error err) ∧ t = d

/-- The revision was replaced with one of this request. -/
def Replaced (r : Revision) (a : Except Error RevisionFiles) (t : Depot) : Prop :=
  ∃ f b, a = .ok f ∧ t.store.get? r.key = some b ∧ b.spec = r

theorem refused_error (err : Error) : Refused d (.error err : Except Error α) d := ⟨⟨err, rfl⟩, rfl⟩

/-- What is done behind a call that fails does not matter. -/
theorem Promptly.refused_bind {x : Call α} {f : α → Call β} (hx : Promptly M (Refused d) x d) :
    Promptly M (Refused d) (x >>= f) d := by
  refine hx.bind ?_ ?_
  · rintro a t ⟨⟨err, h⟩, -⟩
    cases h
  · rintro err t ⟨-, rfl⟩
    exact refused_error err

/-- Nothing is left of a lease that was taken for a call that failed. -/
theorem Refused.released {k : Key} (free : d.store.isBusy k = false) {a : Except Error α} {t : Depot}
    (h : Refused { d with store := d.store.acquire k } a t) : Refused d a (released k t) := by
  obtain ⟨failed, rfl⟩ := h
  refine ⟨failed, ?_⟩
  rw [Call.released, Store.release_acquire free]

end Call

variable {M : Moment → Prop} {c : Context} {d : Depot} {e : Engine} {r : Revision}

namespace Index

/-- Looking for a credential fails for want of a secret only. -/
theorem credential_prompt (source : GitSource) :
    Promptly M (fun a t => t = d ∧ ∀ err, a = .error err → err.kind = .resolution)
      (credential source) d := by
  unfold credential
  split
  · exact ⟨rfl, nofun⟩
  · next secret _ =>
    intro m _
    refine ⟨rfl, ?_⟩
    intro err h
    dsimp only at h
    split at h
    · cases h
    · cases h
      rfl

/-- A scan is not made in a dead context, and this is not for want of the package. -/
theorem findDiscovered_dead (dead : ∀ m, M m → c.Interrupted m) {k : Key} {g : Repository}
    (found : d.registry.get? k.repository = some g) {source : GitSource}
    (place : g.packageSource? = some source) :
    Promptly M (fun a t => t = d ∧ ∃ err, a = .error err ∧ err.kind ≠ .notFound)
      (findDiscovered e k c) d := by
  have scan : Promptly M (fun a t => t = d ∧ ∃ err, a = .error err ∧ err.kind ≠ .notFound)
      (discover e g c) d := by
    unfold discover
    rw [place]
    refine (credential_prompt source).bind ?_ ?_
    · rintro credential t ⟨rfl, -⟩ m hm
      obtain ⟨i, hi⟩ := Option.isSome_iff_exists.1 (dead m hm)
      refine ⟨rfl, .cancelled i, ?_, nofun⟩
      simp only [hi]
    · rintro err t ⟨rfl, kind⟩
      refine ⟨rfl, err, rfl, ?_⟩
      rw [kind err rfl]
      exact nofun
  unfold findDiscovered
  rw [Promptly, query_run]
  intro m _
  dsimp only
  rw [Registry.find_ok_iff.2 found]
  refine Promptly.bind scan ?_ fun _ _ h => ?_
  · rintro ps t ⟨-, err, h, -⟩
    cases h
  · obtain ⟨rfl, _, h, kind⟩ := h
    cases h
    exact ⟨rfl, _, rfl, kind⟩

theorem isDiscovered_dead (dead : ∀ m, M m → c.Interrupted m) {k : Key} {g : Repository}
    (found : d.registry.get? k.repository = some g) {source : GitSource}
    (place : g.packageSource? = some source) :
    Promptly M (Refused d) (isDiscovered e k c) d := by
  unfold isDiscovered
  rw [Promptly, attempt_run]
  refine Routine.Promptly.bind (findDiscovered_dead dead found place) ?_
  rintro a t ⟨rfl, err, rfl, kind⟩
  dsimp only
  rw [if_neg kind]
  exact refused_error err

end Index

namespace Pipeline

/-- No task is begun in a dead context. -/
theorem step_dead (dead : ∀ m, M m → c.Interrupted m) (index : Nat) (current : Option Snapshot)
    (t : Task) : Promptly M (Refused d) (step e r c index current t) d := by
  have entered : Promptly M (Refused d)
      (enter c index e.config.taskMilliseconds >>= fun inner => apply e r current t inner) d := by
    rw [Promptly, enter_run]
    intro m hm
    obtain ⟨i, hi⟩ := Option.isSome_iff_exists.1
      (Context.interrupted_inTask index e.config.taskMilliseconds (dead m hm))
    simp only [hi]
    exact ⟨⟨_, rfl⟩, rfl⟩
  refine Routine.Promptly.bind entered ?_
  rintro a t ⟨⟨err, rfl⟩, rfl⟩
  exact ⟨⟨_, rfl⟩, rfl⟩

/-- And none succeeds in one, whatever others do meanwhile. -/
theorem ends_step_dead (dead : ∀ m, M m → c.Interrupted m) {env : Depot → Depot → Prop}
    {index : Nat} {current : Option Snapshot} {t : Task} {a : Except Error Snapshot} {d' : Depot}
    (h : Routine.Ends env M (step e r c index current t).run d a d') : ∃ err, a = .error err := by
  obtain ⟨b, hx, rfl⟩ := ends_mapError_iff.1 h
  rw [enter_run] at hx
  obtain ⟨_, m, -, hm, rest⟩ := Routine.ends_step_iff.1 hx
  obtain ⟨i, hi⟩ := Option.isSome_iff_exists.1
    (Context.interrupted_inTask index e.config.taskMilliseconds (dead m hm))
  simp only [hi] at rest
  obtain ⟨rfl, -⟩ := Routine.ends_done_iff.1 rest
  exact ⟨_, rfl⟩

/-- So nothing is built that has tasks. -/
theorem execute_dead (dead : ∀ m, M m → c.Interrupted m) (tasks : r.tasks ≠ []) :
    Promptly M (Refused d) (execute e r c) d := by
  unfold execute
  cases r.validate with
  | error err => exact ⟨⟨err, rfl⟩, rfl⟩
  | ok u =>
    have checked : (Call.ofExcept (.ok u) : Call Unit) = pure u := rfl
    rw [checked, pure_bind]
    cases hr : r.tasks with
    | nil => exact (tasks hr).elim
    | cons t rest => exact (step_dead dead 0 (start e r) t).refused_bind.refused_bind

/-- Nothing asks for the context of a build that has no tasks. -/
theorem execute_bare (bare : r.tasks = []) (e : Engine) (c c' : Context) :
    execute e r c = execute e r c' := by
  unfold execute
  rw [bare]
  rfl

theorem execute_of_bare (bare : r.tasks = []) (valid : r.validate = .ok ()) :
    execute e r c = pure (blank e r) := by
  rw [execute_eq_fold e r c valid, bare]
  rfl

end Pipeline

namespace Service

theorem prepare_dead (dead : ∀ m, M m → c.Interrupted m) {intent : Intent} {g : Repository}
    (found : d.registry.get? r.repository = some g) {source : GitSource}
    (place : g.packageSource? = some source) (checked : intent = .create ∨ r.tasks ≠ []) :
    Promptly M (Refused d) (prepare e r intent c) d := by
  refine promptly_query_bind (fun _ _ => ?_) fun err _ => refused_error err
  split
  · exact (Index.isDiscovered_dead dead found place).refused_bind
  · next hi => exact Pipeline.execute_dead dead (checked.resolve_left hi)

/-- **A write that asks its context fails in a dead one**, and changes nothing. -/
theorem write_dead (dead : ∀ m, M m → c.Interrupted m)
    (valid : ∀ n g, d.registry.get? n = some g → g.validate = .ok ()) {intent : Intent}
    (checked : intent = .create ∨ r.tasks ≠ []) :
    Promptly M (Refused d) (write e r intent c) d := by
  rw [write_eq]
  refine promptly_query_bind (fun g hg => ?_) fun err _ => refused_error err
  have found := Registry.find_ok_iff.1 hg
  dsimp only
  cases holds : g.holdsPackages with
  | false => exact refused_error _
  | true =>
    obtain ⟨source, place⟩ := Repository.packageSource?_of_holds (valid _ g found) holds
    refine promptly_withLease (fun _ => refused_error _) fun free => ?_
    have prepared : Promptly M (Refused { d with store := d.store.acquire r.key })
        (prepare e r intent c) { d with store := d.store.acquire r.key } :=
      prepare_dead dead found place checked
    exact prepared.refused_bind.refused_bind.mono fun _ _ failed => failed.released free

/-- A write that is answered with success has built a snapshot, whatever others did meanwhile. -/
theorem ends_write_ok {env : Depot → Depot → Prop} {intent : Intent} {f : RevisionFiles} {d' : Depot}
    (h : Routine.Ends env M (write e r intent c).run d (.ok f) d') :
    ∃ u s v, Routine.Ends env M (Pipeline.execute e r c).run u (.ok s) v := by
  rw [write_eq] at h
  obtain ⟨g, u, -, hx⟩ := ends_bind_ok h
  dsimp only at hx
  split at hx
  · obtain ⟨_, v, hy, -⟩ := ends_bind_ok hx
    cases (ends_throw_iff.1 hy).1
  · obtain ⟨_, v, -, hy⟩ := ends_bind_ok hx
    obtain ⟨w, hz⟩ := Routine.Ends.of_holding hy
    obtain ⟨b, x, hb, -⟩ := ends_bind_ok hz
    obtain ⟨s, y, hs, -⟩ := ends_bind_ok hb
    obtain ⟨z, built⟩ := ends_prepare_ok hs
    exact ⟨z, s, y, built⟩

/-- A write that has tasks is never answered with success in a dead context, whatever others do. -/
theorem ends_write_dead (dead : ∀ m, M m → c.Interrupted m) (tasks : r.tasks ≠ [])
    {env : Depot → Depot → Prop} {intent : Intent} {a : Except Error RevisionFiles} {d' : Depot}
    (h : Routine.Ends env M (write e r intent c).run d a d') : ∃ err, a = .error err := by
  cases a with
  | error err => exact ⟨err, rfl⟩
  | ok f =>
    exfalso
    obtain ⟨u, s, v, built⟩ := ends_write_ok h
    obtain ⟨-, hr⟩ := Pipeline.ends_execute_ok built
    cases htasks : r.tasks with
    | nil => exact tasks htasks
    | cons t rest =>
      rw [htasks] at hr
      obtain ⟨first, w, hs, -⟩ := ends_bind_ok hr
      obtain ⟨err, he⟩ := Pipeline.ends_step_dead dead hs
      cases he

/-- **An update without tasks does not look at its context.** -/
theorem update_ignores_context (bare : r.tasks = []) (e : Engine) (c c' : Context) :
    update e r c = update e r c' := by
  rw [update, update, write_eq, write_eq, prepare, prepare, Pipeline.execute_bare bare e c c']
  rfl

/-- A revision that is there is replaced. -/
theorem commit_prompt {snapshot : Snapshot} (there : (d.store.get? r.key).isSome = true) :
    Promptly M (fun a t => ∃ b, a = .ok b ∧ t.store.get? r.key = some b ∧ b.spec = r)
      (commit ⟨r.key, .replace⟩ r snapshot) d := by
  intro m _
  cases hc : d.store.commit ⟨r.key, .replace⟩ r snapshot m.now with
  | error err =>
    obtain ⟨h, -⟩ | ⟨-, absent, -⟩ := Store.commit_error rfl hc
    · cases h
    · rw [absent] at there
      cases there
  | ok p =>
    have committed := Store.commit_ok hc
    simp only [hc]
    refine ⟨p.1, rfl, ?_, committed.spec_eq⟩
    exact (committed.get?_eq r.key).trans (if_pos rfl)

/-- **It commits**, if the registry and the store let it. -/
theorem update_bare (bare : r.tasks = []) (valid : r.validate = .ok ())
    (registered : d.Registers r.repository) (free : d.store.isBusy r.key = false)
    (there : (d.store.get? r.key).isSome = true) (e : Engine) (c : Context) (M : Moment → Prop) :
    Promptly M (Replaced r) (update e r c) d := by
  obtain ⟨g, found, holds⟩ := registered
  obtain ⟨old, stored⟩ := Option.isSome_iff_exists.1 there
  have asked : d.registry.find r.repository = .ok g := Registry.find_ok_iff.2 found
  have permitted : (d.store.acquire r.key).permit ⟨r.key, .replace⟩ = .ok () := by
    have kept : (d.store.acquire r.key).get? r.key = some old := stored
    simp only [Store.permit, kept]
  have prepared : Promptly M (fun a t => a = .ok (Pipeline.blank e r) ∧
      t = { d with store := d.store.acquire r.key }) (prepare e r .replace c)
      { d with store := d.store.acquire r.key } := by
    refine promptly_query_bind (fun _ _ => ?_) fun err h => by cases h.symm.trans permitted
    rw [if_neg nofun, Pipeline.execute_of_bare bare valid]
    exact ⟨rfl, rfl⟩
  have committed : Promptly M (fun a t => ∃ b, a = .ok b ∧ t.store.get? r.key = some b ∧ b.spec = r)
      (prepare e r .replace c >>= commit ⟨r.key, .replace⟩ r)
      { d with store := d.store.acquire r.key } := by
    apply prepared.bind
    · rintro snapshot t ⟨-, rfl⟩
      exact commit_prompt there
    · rintro err t ⟨h, -⟩
      cases h
  rw [update, write_eq]
  refine promptly_query_bind (fun g' hg => ?_) fun err hg => by cases hg.symm.trans asked
  cases hg.symm.trans asked
  simp only [holds, Bool.not_true, Bool.false_eq_true, if_false]
  refine promptly_withLease (fun busy => by cases busy.symm.trans free) fun _ => ?_
  apply committed.bind
  · rintro b t ⟨_, h, stored, spec⟩
    cases h
    exact ⟨_, b, rfl, stored, spec⟩
  · rintro err t ⟨_, h, -⟩
    cases h

end Service

/-- Every registered repository has the form that it should have. -/
theorem Traffic.run_valid (e : Engine) (m : Moment) (git : GitHost) (images : ImageHost)
    (secrets : Dict Credential) (es : Nat → Event) (n : Nat) : ∀ name g,
      (run e (opening m git images secrets) es n).depot.registry.get? name = some g →
        g.validate = .ok () := by
  refine run_invariant (I := fun d => ∀ name g, d.registry.get? name = some g → g.validate = .ok ())
    ?_ (fun d d' registry _ h => registry ▸ h) nofun n
  intro q t m d d' u h valid
  cases h with
  | register _ h =>
    intro name g found
    obtain before | ⟨rfl, rfl⟩ := Registry.get?_of_register h found
    · exact valid name g before
    · exact Registry.register_valid h
  | remove _ h => exact fun name g found => valid name g (Registry.get?_of_unregister h found)
  | _ => exact valid

/-- What writes come to in a context that was interrupted before they began. -/
structure DeadContexts (e : Engine) (d : Depot) : Prop where
  /-- A creation comes to an end at once, with an error, and leaves the depot as it was. -/
  create : ∀ r c m₀, c.Interrupted m₀ →
    Promptly m₀.Since (Refused d) (Service.create e r c) d
  /-- So does an update that has tasks. -/
  update : ∀ r c m₀, c.Interrupted m₀ → r.tasks ≠ [] →
    Promptly m₀.Since (Refused d) (Service.update e r c) d
  /-- No write that has tasks succeeds, whatever others do to the depot meanwhile. -/
  among : ∀ r intent c m₀ env a d', c.Interrupted m₀ → r.tasks ≠ [] →
    Routine.Ends env m₀.Since (Service.write e r intent c).run d a d' → ∃ err, a = .error err
  /-- An update without tasks is the same call in all contexts, dead or not. -/
  bare : ∀ r c c', r.tasks = [] → Service.update e r c = Service.update e r c'
  /-- It replaces a revision that is there and that nobody else writes. -/
  commits : ∀ r c M, r.tasks = [] → r.validate = .ok () → d.Registers r.repository →
    d.store.isBusy r.key = false → (d.store.get? r.key).isSome = true →
    Promptly M (Replaced r) (Service.update e r c) d

namespace Traffic

/-- **Writes in dead contexts** fail on every depot that traffic leads to, updates without tasks apart. -/
theorem dead_contexts (e : Engine) (m : Moment) (git : GitHost) (images : ImageHost)
    (secrets : Dict Credential) (es : Nat → Event) (n : Nat) :
    DeadContexts e (run e (opening m git images secrets) es n).depot where
  create _ _ _ dead := Service.write_dead (fun _ since => Context.interrupted_since since dead)
    (run_valid e m git images secrets es n) (.inl rfl)
  update _ _ _ dead tasks :=
    Service.write_dead (fun _ since => Context.interrupted_since since dead)
      (run_valid e m git images secrets es n) (.inr tasks)
  among _ _ _ _ _ _ _ dead tasks h :=
    Service.ends_write_dead (fun _ since => Context.interrupted_since since dead) tasks h
  bare _ c c' bare := Service.update_ignores_context bare e c c'
  commits _ c M bare valid registered free there :=
    Service.update_bare bare valid registered free there e c M

/-! ## An update in a cancelled context -/

namespace DeadUpdate

def repository : Repository := .ofGit "apps" { repo := "host/apps" }

/-- A package that is begun by a task. -/
def begun : Revision :=
  { package := "web", revision := "v1", repository := "apps", tasks := [.starting {}] }

/-- The same package without tasks. -/
def bare : Revision := { begun with tasks := [] }

/-- The context of the update, which is cancelled before the update begins. -/
def context : Context := ⟨[2], none⟩

def script : List Event :=
  [.start (.register repository), .move 0, .start (.create begun ⟨[1], none⟩)] ++
    List.replicate 8 (.move 1) ++ [.pass 0 [[2]], .start (.update bare context)] ++
    List.replicate 5 (.move 2)

def events (n : Nat) : Event := script[n]?.getD (.pass 0 [])

/-- The depot. In git there is the repository, with nothing in it. -/
def course : Nat → Traffic :=
  run {} (opening {} (GitHost.setRef ∅ "host/apps" "main" ⟨"c0", ∅⟩) ∅ ∅) events

end DeadUpdate

/-- An update without tasks is begun in a context that was cancelled before. It is answered with success,
and the revision is another one afterwards. -/
theorem dead_update_commits :
    DeadUpdate.events 12 = .start (.update DeadUpdate.bare DeadUpdate.context) ∧
    DeadUpdate.context.Interrupted (DeadUpdate.course 12).moment ∧
    ((DeadUpdate.course 12).depot.store.get? DeadUpdate.bare.key).map Stored.spec =
      some DeadUpdate.begun ∧
    (∃ f, (DeadUpdate.course 18).Answered 2 (.ok (.files f))) ∧
    ((DeadUpdate.course 18).depot.store.get? DeadUpdate.bare.key).map Stored.spec =
      some DeadUpdate.bare := by
  refine ⟨rfl, rfl, ?_, ⟨_, _, rfl⟩, ?_⟩
  · decide +kernel
  · decide +kernel

end Traffic

end PackageDepot
