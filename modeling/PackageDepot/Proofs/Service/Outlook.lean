import PackageDepot.Proofs.Backend.Discovery
import PackageDepot.Proofs.Service.Likewise
import PackageDepot.Proofs.Service.Writing

/-!
# What calls look at

States that are alike may differ in much that no call gets to see. An `Outlook` says that they do not
differ in what calls do look at: the registry, the secrets, and what each credential opens that a call may
have. The only other thing that a build looks at is what is stored under the keys that it clones
(`Likeness.Shows`). With these the same, looking up, resolving, building and writing do likewise, one lemma
for each.
-/

namespace PackageDepot

open Package Backend Call

/-- A task clones what another revision of this name has. -/
def Package.Task.Cites (t : Task) (k : Key) : Prop :=
  ∃ spec ref, t.kind = .clone ∧ t.clone = some spec ∧ spec.source.revision = some ref ∧
    Key.parse? ref.name = some k

/-- A task of a request clones what another revision of this name has. -/
def Package.Revision.Cites (r : Revision) (k : Key) : Prop := ∃ t ∈ r.tasks, t.Cites k

/-- The values of a dictionary are those under its keys. -/
theorem Dict.mem_values_iff {α : Type} {d : Dict α} {v : α} :
    v ∈ d.values ↔ ∃ k, d.get? k = some v := by
  rw [Dict.values, List.mem_map]
  constructor
  · rintro ⟨⟨k, v⟩, there, rfl⟩
    exact ⟨k, get?_eq_some_iff.2 there⟩
  · rintro ⟨k, there⟩
    exact ⟨(k, v), get?_eq_some_iff.1 there, rfl⟩

/-- What a scan finds, or a fetch, depends on what access is given to. -/
theorem Backend.GitHost.discover_congr {g h : GitHost} {source : GitSource}
    {credential : Option Credential} (same : g.access source.repo credential =
      h.access source.repo credential) (manifest : String) :
    g.discover source manifest credential = h.discover source manifest credential := by
  unfold discover
  rw [same]

theorem Backend.GitHost.fetch_congr {g h : GitHost} {location : GitLocation}
    {credential : Option Credential} (same : g.access location.repo credential =
      h.access location.repo credential) : g.fetch location credential = h.fetch location credential := by
  unfold fetch
  rw [same]

/-- States that are alike look the same to a call that asks for no other credentials than registered
repositories do. -/
structure Outlook (L : Likeness Depot) where
  /-- Places that a call may know from the registry. -/
  Fit : GitSource → Prop
  /-- Credentials that it may have for an address. -/
  Grants : String → Option Credential → Prop
  anonymous : ∀ repo, Grants repo none
  registry : ∀ {s t}, L.states s t → s.registry = t.registry
  secrets : ∀ {s t}, L.states s t → s.secrets = t.secrets
  access : ∀ {s t}, L.states s t → ∀ {repo credential}, Grants repo credential →
    s.git.access repo credential = t.git.access repo credential
  fit : ∀ {s t}, L.states s t → ∀ r ∈ s.registry.values, ∀ g, r.git = some g → Fit g
  granted : ∀ {s t}, L.states s t → ∀ {g}, Fit g → ∀ {name credential}, g.secret? = some name →
    s.secrets.get? name = some credential → Grants g.repo (some credential)

namespace Likeness

variable (L : Likeness Depot)

/-- States that are alike have the same under a key. -/
def Shows (k : Key) : Prop := ∀ s t, L.states s t →
  (s.store.get? k).map Stored.substance = (t.store.get? k).map Stored.substance

/-- The contexts are interrupted alike, and so are those of their tasks; and evaluations may be waited
for. -/
structure Serves (e : Engine) (c c' : Context) : Prop where
  contexts : L.Contexts c c'
  tasks : ∀ label m m', L.moments m m' →
    L.Contexts (c.inTask label e.config.taskMilliseconds m)
      (c'.inTask label e.config.taskMilliseconds m')
  works : ∀ image config files, L.works (e.evaluator image config files).duration

/-- A writer of a key finds the key alike, and keeps states alike. -/
structure Owns (k : Key) : Prop where
  shows : L.Shows k
  busy : ∀ s t, L.states s t → s.store.isBusy k = t.store.isBusy k
  acquired : L.Carries (fun d => { d with store := d.store.acquire k })
    fun d => { d with store := d.store.acquire k }
  released : L.Carries (released k) (released k)
  commits : ∀ m m' s t, L.moments m m' → L.states s t → ∀ intent r snapshot, r.key = k →
    Matching (fun a b : Stored × Store => a.1.substance = b.1.substance ∧
        L.states { s with store := a.2 } { t with store := b.2 })
      (s.store.commit ⟨k, intent⟩ r snapshot m.now) (t.store.commit ⟨k, intent⟩ r snapshot m'.now)

end Likeness

namespace Outlook

variable {L : Likeness Depot} (V : Outlook L) {e : Engine} {c c' : Context}

/-- A repository whose place a call may know. -/
def Fair (r : Repository) : Prop := ∀ g, r.git = some g → V.Fit g

include V

theorem credential {source : GitSource} (fit : V.Fit source) :
    Likewise L (fun a b => a = b ∧ V.Grants source.repo a) (Index.credential source)
      (Index.credential source) := by
  unfold Index.credential
  cases hs : source.secret? with
  | none => exact likewise_pure ⟨rfl, V.anonymous _⟩
  | some secret =>
    refine likewise_query fun s t alike => ?_
    rw [← V.secrets alike]
    cases hc : s.secrets.get? secret with
    | some credential => exact .ok ⟨rfl, V.granted alike fit hs hc⟩
    | none => exact .error _

theorem discover (hc : L.Contexts c c') {r : Repository} (fair : V.Fair r) :
    Likewise L (fun a b => a = b ∧ ∀ p ∈ a, ∀ g, r.git = some g → p.location.repo = g.repo)
      (Index.discover e r c) (Index.discover e r c') := by
  unfold Index.discover
  cases hs : r.packageSource? with
  | none => exact likewise_pure ⟨rfl, nofun⟩
  | some source =>
    have place := Repository.git_of_packageSource? hs
    refine (V.credential (fair source place)).bind fun a b ⟨same, granted⟩ => ?_
    subst same
    refine likewise_within hc fun s t alike => ?_
    rw [← GitHost.discover_congr (V.access alike granted)]
    cases found : s.git.discover source e.indexManifest a with
    | error fault => exact .error _
    | ok ps =>
      refine .ok ⟨rfl, fun p hp g hg => ?_⟩
      obtain ⟨_, _, _, offers⟩ := (GitHost.mem_discover_iff found).1 hp
      cases place.symm.trans hg
      exact offers.repo_eq

/-- A repository that was looked up by its name. -/
theorem found {s t : Depot} (alike : L.states s t) (name : String) :
    Matching (fun a b => a = b ∧ V.Fair a) (s.registry.find name) (t.registry.find name) := by
  rw [← V.registry alike]
  cases hf : s.registry.find name with
  | error err => exact .error err
  | ok r =>
    exact .ok ⟨rfl, V.fit alike r (Dict.mem_values_iff.2 ⟨name, Registry.find_ok_iff.1 hf⟩)⟩

theorem findDiscovered (hc : L.Contexts c c') (k : Key) :
    Likewise L (fun a b => a = b ∧ V.Fair a.1 ∧ ∀ g, a.1.git = some g → a.2.location.repo = g.repo)
      (Index.findDiscovered e k c) (Index.findDiscovered e k c') := by
  refine (likewise_query fun s t alike => (V.found alike k.repository).mapError _).bind
    fun r _ ⟨same, fair⟩ => ?_
  subst same
  refine (V.discover hc fair).bind fun ps _ ⟨same, places⟩ => ?_
  subst same
  cases hp : ps.find? fun p => p.package = k.package && p.location.ref = k.revision with
  | none => exact likewise_throw _
  | some p => exact likewise_pure ⟨rfl, fair, places p (List.mem_of_find?_eq_some hp)⟩

theorem isDiscovered (hc : L.Contexts c c') (k : Key) :
    Likewise L Eq (Index.isDiscovered e k c) (Index.isDiscovered e k c') := by
  refine (V.findDiscovered hc k).attempt.bind fun a b matching => ?_
  cases matching with
  | ok _ => exact likewise_pure rfl
  | error err =>
    dsimp only
    split
    · exact likewise_pure rfl
    · exact likewise_throw err

theorem lookupDiscovered (hc : L.Contexts c c') (k : Key) :
    Likewise L Eq (Index.lookupDiscovered e k c) (Index.lookupDiscovered e k c') := by
  refine (V.findDiscovered hc k).bind fun ⟨r, p⟩ _ ⟨same, fair, place⟩ => ?_
  subst same
  dsimp only at fair place ⊢
  cases hg : r.git with
  | none => exact likewise_throw _
  | some source =>
    refine (V.credential (fair source hg)).bind fun credential _ ⟨same, granted⟩ => ?_
    subst same
    rw [← place source hg] at granted
    refine Likewise.bind (Q := Eq) (likewise_within hc fun s t alike => ?_) fun _ _ same => ?_
    · rw [GitHost.fetch_congr (V.access alike granted)]
      exact matching_refl _
    · subst same
      exact likewise_pure rfl

omit V in
/-- What is done with a stored revision, if there is one. -/
theorem stored {α β : Type} {Q : α → β → Prop} {k : Key} (shown : L.Shows k)
    {f : Option Stored → Call α} {g : Option Stored → Call β}
    (none : Likewise L Q (f none) (g none))
    (some : ∀ a b : Stored, a.substance = b.substance → Likewise L Q (f (some a)) (g (some b))) :
    Likewise L Q (Call.read (fun d => d.store.get? k) >>= f)
      (Call.read (fun d => d.store.get? k) >>= g) := by
  refine Likewise.bind (Q := fun a b => a.map Stored.substance = b.map Stored.substance)
    (likewise_read fun s t alike => shown s t alike) fun a b same => ?_
  cases a with
  | none =>
    cases b with
    | none => exact none
    | some b => cases same
  | some a =>
    cases b with
    | none => cases same
    | some b => exact some a b (Option.some.inj same)

theorem lookup (hc : L.Contexts c c') {k : Key} (shown : L.Shows k) :
    Likewise L Eq (Index.lookup e k c) (Index.lookup e k c') := by
  refine stored shown (V.lookupDiscovered hc k) fun a b same => ?_
  have files := congrArg Substance.files same
  have kptfile := congrArg Substance.kptfile same
  dsimp only [Stored.substance] at files kptfile
  dsimp only
  rw [files, kptfile]
  exact likewise_pure rfl

theorem credentialFor (repo : String) :
    Likewise L (fun a b => a = b ∧ V.Grants repo a) (Resolve.credentialFor repo)
      (Resolve.credentialFor repo) := by
  refine Likewise.bind (Q := fun a b => a = b ∧ ∀ g, a = some g → V.Fit g ∧ g.repo = repo)
    (likewise_read fun s t alike => ?_) fun a b ⟨same, places⟩ => ?_
  · refine ⟨by rw [V.registry alike], fun g hg => ?_⟩
    obtain ⟨r, hr, place⟩ := List.mem_filterMap.1 (List.mem_of_find?_eq_some hg)
    exact ⟨V.fit alike r hr g place, by simpa using List.find?_some hg⟩
  · subst same
    cases a with
    | none => exact likewise_pure ⟨rfl, V.anonymous repo⟩
    | some g =>
      obtain ⟨fit, rfl⟩ := places g rfl
      exact V.credential fit

theorem git (hc : L.Contexts c c') (location : GitLocation) :
    Likewise L Eq (Resolve.git location c) (Resolve.git location c') := by
  refine (V.credentialFor location.repo).bind fun credential _ ⟨same, granted⟩ => ?_
  subst same
  refine Likewise.bind (Q := Eq) (likewise_within hc fun s t alike => ?_) fun fetched _ same => ?_
  · rw [GitHost.fetch_congr (V.access alike granted)]
    exact matching_refl _
  · subst same
    dsimp only
    split
    · exact (likewise_throw (Q := Eq) _).bind fun _ _ _ => likewise_pure rfl
    · exact likewise_pure rfl

theorem revision (hc : L.Contexts c c') {k : Key} (shown : L.Shows k) :
    Likewise L Eq (Resolve.revision e k c) (Resolve.revision e k c') := by
  refine ((V.lookup hc shown).mapError _).bind fun content _ same => ?_
  subst same
  cases content.lock with
  | none => exact likewise_throw _
  | some lock =>
    dsimp only
    split
    · exact (likewise_throw (Q := Eq) _).bind fun _ _ _ => likewise_pure rfl
    · exact likewise_pure rfl

theorem source (hc : L.Contexts c c') {s : CloneSource}
    (shown : ∀ ref k, s.revision = some ref → Key.parse? ref.name = some k → L.Shows k) :
    Likewise L Eq (Resolve.source e s c) (Resolve.source e s c') := by
  unfold Resolve.source
  split
  · exact V.git hc _
  · next ref _ hr =>
    cases hk : Key.parse? ref.name with
    | none => exact likewise_throw _
    | some k => exact V.revision hc (shown ref k hr hk)
  · exact likewise_throw _

omit V in
theorem valid {α : Type} (r : Except ValidationFault α) :
    Likewise L Eq (Pipeline.valid r) (Pipeline.valid r) :=
  likewise_ofExcept (matching_refl _)

omit V in
/-- The payload of a task that has one. -/
theorem payload {α : Type} (t : Task) (spec : Option α) :
    Likewise L (fun a b => a = b ∧ spec = some a) (Pipeline.valid (Pipeline.payload t spec))
      (Pipeline.valid (Pipeline.payload t spec)) := by
  cases spec with
  | none => exact likewise_ofExcept (.error _)
  | some a => exact likewise_ofExcept (.ok ⟨rfl, rfl⟩)

theorem apply (hc : L.Contexts c c')
    (works : ∀ image config files, L.works (e.evaluator image config files).duration)
    {r : Revision} {current : Option Snapshot} {t : Task} (shown : ∀ k, t.Cites k → L.Shows k) :
    Likewise L Eq (Pipeline.apply e r current t c) (Pipeline.apply e r current t c') := by
  unfold Pipeline.apply
  split
  · next kind =>
    refine (payload t t.clone).bind fun spec _ alike => ?_
    obtain ⟨same, given⟩ := alike
    subst same
    refine Likewise.bind (Q := Eq) (V.source hc fun ref k hr hk => ?_) fun resolved _ same => ?_
    · exact shown k ⟨spec, ref, kind, given, hr, hk⟩
    · subst same
      exact likewise_ofExcept (matching_refl _)
  · refine (valid _).bind fun spec _ same => ?_
    subst same
    exact likewise_pure rfl
  · refine (valid _).bind fun before _ same => ?_
    subst same
    refine (valid _).bind fun spec _ same => ?_
    subst same
    refine (likewise_work hc (works ..) _).bind fun files _ same => ?_
    subst same
    exact likewise_ofExcept (matching_refl _)
  · refine (valid _).bind fun before _ same => ?_
    subst same
    refine (valid _).bind fun spec _ same => ?_
    subst same
    exact valid _

theorem step (serves : L.Serves e c c') {r : Revision} (index : Nat) (current : Option Snapshot)
    {t : Task} (shown : ∀ k, t.Cites k → L.Shows k) :
    Likewise L Eq (Pipeline.step e r c index current t) (Pipeline.step e r c' index current t) :=
  ((likewise_enter (serves.tasks index)).bind fun _ _ inside =>
    V.apply inside serves.works shown).mapError _

theorem run (serves : L.Serves e c c') {r : Revision} (index : Nat) (current : Option Snapshot)
    {tasks : List Task} (shown : ∀ t ∈ tasks, ∀ k, t.Cites k → L.Shows k) :
    Likewise L Eq (Pipeline.run e r c index current tasks)
      (Pipeline.run e r c' index current tasks) := by
  induction tasks generalizing index current with
  | nil => exact likewise_pure rfl
  | cons t rest ih =>
    refine (V.step serves index current (shown t List.mem_cons_self)).bind fun next _ same => ?_
    subst same
    exact ih _ _ fun t ht => shown t (List.mem_cons_of_mem _ ht)

/-- **Two builds do likewise** where they look at the same. -/
theorem execute (serves : L.Serves e c c') {r : Revision} (shown : ∀ k, r.Cites k → L.Shows k) :
    Likewise L Eq (Pipeline.execute e r c) (Pipeline.execute e r c') := by
  refine (likewise_ofExcept (matching_refl r.validate)).bind fun _ _ _ => ?_
  refine (V.run serves 0 _ fun t ht k cites => shown k ⟨t, ht, cites⟩).bind fun s _ same => ?_
  subst same
  cases s with
  | some s => exact likewise_pure rfl
  | none => exact likewise_throw _

theorem prepare (serves : L.Serves e c c') {r : Revision} {intent : Intent}
    (shown : ∀ k, r.Cites k → L.Shows k) (own : L.Shows r.key) :
    Likewise L Eq (Service.prepare e r intent c) (Service.prepare e r intent c') := by
  have permit : Likewise L Eq (Service.permit ⟨r.key, intent⟩) (Service.permit ⟨r.key, intent⟩) := by
    refine likewise_query fun s t alike => matching_of_eq (Store.permit_congr ?_)
    have there := congrArg Option.isSome (own s t alike)
    rwa [Option.isSome_map, Option.isSome_map] at there
  refine permit.bind fun _ _ _ => ?_
  cases intent with
  | replace => exact V.execute serves shown
  | create =>
    refine (V.isDiscovered serves.contexts r.key).bind fun found _ same => ?_
    subst same
    cases found with
    | true => exact (likewise_throw (Q := Eq) _).bind fun _ _ _ => V.execute serves shown
    | false => exact V.execute serves shown

/-- **Two writes do likewise** where they look at the same and find their key alike. -/
theorem write (serves : L.Serves e c c') {r : Revision} {intent : Intent} (owns : L.Owns r.key)
    (shown : ∀ k, r.Cites k → L.Shows k) :
    Likewise L Eq (Service.write e r intent c) (Service.write e r intent c') := by
  rw [Service.write_eq, Service.write_eq]
  refine (likewise_query fun s t alike => V.found alike r.repository).bind fun g _ ⟨same, _⟩ => ?_
  subst same
  cases g.holdsPackages with
  | false => exact likewise_throw _
  | true =>
    refine likewise_withLease owns.busy owns.acquired owns.released ?_
    refine Likewise.bind (Q := fun a b => a.substance = b.substance) ?_ fun a b same => ?_
    · refine (V.prepare serves shown owns.shows).bind fun snapshot _ same => ?_
      subst same
      refine likewise_update fun m m' s t hm alike => ?_
      have committed := owns.commits m m' s t hm alike intent r snapshot rfl
      generalize s.store.commit _ _ _ _ = x, t.store.commit _ _ _ _ = y at committed
      cases committed with
      | ok h => exact .ok h
      | error err => exact .error err
    · have files := congrArg Substance.files same
      dsimp only [Stored.substance] at files
      rw [files]
      exact likewise_pure rfl

end Outlook

end PackageDepot
