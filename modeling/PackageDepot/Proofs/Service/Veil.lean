import PackageDepot.Proofs.Service.Outlook
import PackageDepot.Proofs.Traffic.Basic

/-!
# Behind a credential

Two depots that differ in the refs of one repository only, which asks for a credential
(`Depot.Veils`), look the same to all calls as long as no registered repository with its address has that
credential (`Depot.Keyless`): access is refused before a ref is looked at. So the calls of all requests do
likewise (`Request.likewise`), except that one which registers a repository with the credential ends the
likeness by its last step (`Request.register_likewise`).
-/

namespace PackageDepot

open Package Backend Call

/-- The depots differ at most in the refs of a repository that asks for the credential. -/
structure Depot.Veils (repo : String) (credential : Credential) (d d' : Depot) : Prop where
  registry : d.registry = d'.registry
  store : d.store = d'.store
  images : d.images = d'.images
  secrets : d.secrets = d'.secrets
  others : ∀ other, other ≠ repo → d.git.get? other = d'.git.get? other
  veiled : ∃ g refs, d.git.get? repo = some g ∧ d'.git.get? repo = some { g with refs } ∧
    g.credential = some credential

/-- A place in git has no secret for the credential of a repository. -/
def GitSource.Keyless (secrets : Dict Credential) (repo : String) (credential : Credential)
    (g : GitSource) : Prop :=
  g.repo = repo → ∀ name, g.secret? = some name → secrets.get? name ≠ some credential

/-- No registered repository has a secret for the credential of a repository. -/
def Depot.Keyless (d : Depot) (repo : String) (credential : Credential) : Prop :=
  ∀ r ∈ d.registry.values, ∀ g, r.git = some g → g.Keyless d.secrets repo credential

namespace Depot.Veils

variable {repo : String} {credential : Credential} {d d' : Depot}

/-- Without the credential, access is the same in both. -/
theorem access (h : d.Veils repo credential d') {other : String} {given : Option Credential}
    (keyless : other = repo → given ≠ some credential) :
    d.git.access other given = d'.git.access other given := by
  by_cases same : other = repo
  · subst same
    obtain ⟨g, refs, hg, hg', asks⟩ := h.veiled
    have refused : ∀ r : GitRepo, r.offline = g.offline → r.credential = g.credential →
        r.checkAccess other given = .error
          (if g.offline then .unreachable other else .unauthorized other) := by
      intro r offline credential
      have other : (some ‹Credential› : Option Credential) ≠ given := fun h => keyless rfl h.symm
      unfold GitRepo.checkAccess
      rw [offline, credential, asks]
      cases g.offline with
      | true => rfl
      | false => simp [other]
    unfold GitHost.access
    rw [hg, hg']
    dsimp only
    rw [refused g rfl rfl, refused { g with refs } rfl rfl]
    rfl
  · unfold GitHost.access
    rw [h.others other same]

theorem withStore (h : d.Veils repo credential d') (store : Store) :
    ({ d with store } : Depot).Veils repo credential { d' with store } where
  registry := h.registry
  store := rfl
  images := h.images
  secrets := h.secrets
  others := h.others
  veiled := h.veiled

theorem withRegistry (h : d.Veils repo credential d') (registry : Registry) :
    ({ d with registry } : Depot).Veils repo credential { d' with registry } where
  registry := rfl
  store := h.store
  images := h.images
  secrets := h.secrets
  others := h.others
  veiled := h.veiled

end Depot.Veils

/-- Depots that differ behind the credential, with the same moments and an invariant of one of them. -/
def Likeness.veil (repo : String) (credential : Credential) (J : Depot → Prop) : Likeness Depot where
  moments := Eq
  states d d' := d.Veils repo credential d' ∧ J d
  works _ := True

namespace Veil

variable {repo : String} {credential : Credential} {secrets : Dict Credential} {e : Engine}
  {c : Context}

/-- The secrets are these, and no registered repository has one for the credential. -/
def Kept (secrets : Dict Credential) (repo : String) (credential : Credential) (d : Depot) : Prop :=
  d.secrets = secrets ∧ d.Keyless repo credential

/-- The likeness of depots that differ behind the credential, while no registered repository has it. -/
abbrev like (secrets : Dict Credential) (repo : String) (credential : Credential) : Likeness Depot :=
  .veil repo credential (Kept secrets repo credential)

/-- What calls look at without the credential. -/
def outlook (secrets : Dict Credential) (repo : String) (credential : Credential) :
    Outlook (like secrets repo credential) where
  Fit := GitSource.Keyless secrets repo credential
  Grants other given := other = repo → given ≠ some credential
  anonymous _ := nofun
  registry h := h.1.registry
  secrets h := h.1.secrets
  access h _ _ := h.1.access
  fit h r hr g hg := h.2.1 ▸ h.2.2 r hr g hg
  granted h _ keyless name given asks there same hc := by
    cases hc
    rw [h.2.1] at there
    exact keyless same name asks there

theorem contexts (c : Context) (J : Depot → Prop) :
    (Likeness.veil repo credential J).Contexts c c := by
  rintro m _ rfl
  rfl

theorem serves (e : Engine) (c : Context) : (like secrets repo credential).Serves e c c where
  contexts := contexts c _
  tasks label m := by
    rintro _ rfl
    exact contexts _ _
  works _ _ _ := trivial

/-- The stores may be changed alike. -/
theorem carries_store (J : Depot → Prop) (hJ : ∀ d store, J d → J { d with store })
    (f : Store → Store) : (Likeness.veil repo credential J).Carries
      (fun d => { d with store := f d.store }) fun d => { d with store := f d.store } := by
  intro s t h
  dsimp only
  rw [← h.1.store]
  exact ⟨h.1.withStore _, hJ _ _ h.2⟩

theorem carries (f : Store → Store) : (like secrets repo credential).Carries
    (fun d => { d with store := f d.store }) fun d => { d with store := f d.store } :=
  carries_store _ (fun _ _ h => h) f

theorem shows (k : Key) : (like secrets repo credential).Shows k := fun s t h => by rw [h.1.store]

theorem owns (k : Key) : (like secrets repo credential).Owns k where
  shows := shows k
  busy s t h := by rw [h.1.store]
  acquired := carries fun store => store.acquire k
  released := carries fun store => store.release k
  commits m m' s t hm h intent r snapshot _ := by
    cases hm
    rw [← h.1.store]
    cases s.store.commit ⟨k, intent⟩ r snapshot m.now with
    | error err => exact .error err
    | ok a => exact .ok ⟨rfl, h.1.withStore _, h.2⟩

end Veil

namespace Request

variable {repo : String} {credential : Credential} {secrets : Dict Credential} (e : Engine)

open Veil

theorem write_likewise (r : Revision) (intent : Intent) (c : Context) :
    Likewise (like secrets repo credential) Eq (Service.write e r intent c)
      (Service.write e r intent c) :=
  (outlook secrets repo credential).write (serves e c) (owns r.key) fun k _ => shows k

theorem get_likewise (k : Key) (c : Context) :
    Likewise (like secrets repo credential) Eq (Service.get e k c) (Service.get e k c) := by
  refine Outlook.stored (shows k) ?_ fun a b same => ?_
  · refine ((outlook secrets repo credential).lookup (contexts c _) (shows k)).bind
      fun content _ same => ?_
    subst same
    exact likewise_pure rfl
  · have files := congrArg Substance.files same
    have kptfile := congrArg Substance.kptfile same
    dsimp only [Stored.substance] at files kptfile
    dsimp only
    rw [files, kptfile]
    exact likewise_pure rfl

theorem delete_likewise (k : Key) (c : Context) :
    Likewise (like secrets repo credential) Eq (Service.delete e k c) (Service.delete e k c) := by
  have erase : Likewise (like secrets repo credential) Eq (Service.deleteIfExists k)
      (Service.deleteIfExists k) := by
    refine likewise_withLease (owns k).busy (owns k).acquired (owns k).released ?_
    refine likewise_update fun m m' s t _ h => .ok ⟨?_, carries (fun store => store.erase k) s t h⟩
    rw [h.1.store]
  have created : Likewise (like secrets repo credential) Eq (Service.deleteCreated k)
      (Service.deleteCreated k) := by
    refine erase.bind fun there _ same => ?_
    subst same
    cases there with
    | true => exact likewise_pure rfl
    | false => exact likewise_throw _
  refine created.attempt.bind fun a b matching => ?_
  cases matching with
  | ok _ => exact likewise_pure rfl
  | error err =>
    dsimp only
    split
    · refine ((outlook secrets repo credential).isDiscovered (contexts c _) k).attempt.bind
        fun a b matching => ?_
      rw [matching.eq]
      split
      · exact likewise_throw _
      · exact likewise_throw _
    · exact likewise_throw _

/-- Reading what is the same in both. -/
theorem read_likewise {α : Type} {f : Depot → α} {J : Depot → Prop}
    (h : ∀ s t, s.Veils repo credential t → f s = f t) :
    Likewise (.veil repo credential J) Eq (Call.read f) (Call.read f) :=
  likewise_read fun s t alike => h s t alike.1

theorem query_likewise {α : Type} {f : Depot → Except Error α} {J : Depot → Prop}
    (h : ∀ s t, s.Veils repo credential t → f s = f t) :
    Likewise (.veil repo credential J) Eq (Call.query f) (Call.query f) :=
  likewise_query fun s t alike => matching_of_eq (h s t alike.1)

theorem list_likewise (f : Filter) (c : Context) :
    Likewise (like secrets repo credential) Eq (Index.list e f c) (Index.list e f c) := by
  let V := outlook secrets repo credential
  refine Likewise.bind (Q := fun a b => a = b ∧ ∀ r ∈ a, V.Fair r)
    (likewise_read fun s t alike => ?_) fun rs _ ⟨same, fair⟩ => ?_
  · refine ⟨by rw [alike.1.registry], fun r hr => ?_⟩
    exact V.fit alike r (List.mem_filter.1 hr).1
  · subst same
    refine (likewise_mapM rs fun r hr => ?_).bind fun scans _ same => ?_
    · refine (V.discover (contexts c _) (fair r hr)).attempt.bind fun a b matching => ?_
      rw [(matching.mono fun _ _ h => h.1).eq]
      exact likewise_pure rfl
    · subst same
      refine (likewise_mapM scans fun s _ => ?_).bind fun sections _ same => ?_
      · refine (read_likewise fun s t h => by rw [h.store]).bind fun created _ same => ?_
        subst same
        dsimp only
        split
        · exact likewise_pure rfl
        · split
          · exact likewise_throw _
          · exact likewise_pure rfl
      · subst same
        exact likewise_pure rfl

theorem functions_likewise (c : Context) (J : Depot → Prop) :
    Likewise (.veil repo credential J) Eq (Index.functions c) (Index.functions c) := by
  refine (read_likewise fun s t h => by rw [h.registry]).bind fun rs _ same => ?_
  subst same
  refine (likewise_mapM rs fun r _ => ?_).bind fun found _ same => ?_
  · refine Likewise.bind (Q := Matching Eq) (Likewise.attempt ?_) fun a b matching => ?_
    · refine (query_likewise fun s t h => by rw [h.registry]).bind fun r _ same => ?_
      subst same
      cases r.functionRegistry? with
      | none => exact likewise_throw _
      | some registry =>
        refine Likewise.bind (Q := Eq) (likewise_within (contexts c J) fun s t h => ?_)
          fun images _ same => ?_
        · rw [h.1.images]
          exact matching_refl _
        · subst same
          exact likewise_pure rfl
    · rw [matching.eq]
      cases b with
      | ok functions => exact likewise_pure rfl
      | error err =>
        dsimp only
        split
        · exact likewise_throw _
        · exact likewise_pure rfl
  · subst same
    exact likewise_pure rfl

theorem unregister_likewise (name : String) :
    Likewise (like secrets repo credential) Eq (Service.unregister name) (Service.unregister name) := by
  refine Likewise.bind (Q := Eq) (likewise_update fun m m' s t _ h => ?_) fun _ _ _ =>
    Likewise.bind (Q := Eq) (likewise_update fun m m' s t _ h => ?_) fun _ _ _ => likewise_pure rfl
  · rw [h.1.registry]
    cases hr' : t.registry.unregister name with
    | error err => exact .error err
    | ok a =>
      refine .ok ⟨rfl, h.1.withRegistry _, h.2.1, fun r hr => h.2.2 r ?_⟩
      obtain ⟨n, there⟩ := Dict.mem_values_iff.1 hr
      rw [h.1.registry]
      exact Dict.mem_values_iff.2 ⟨n, Registry.get?_of_unregister hr' there⟩
  · refine .ok ⟨by rw [h.1.store], carries (fun store => store.purge name) s t h⟩

/-- Registering a repository looks at the registry only. -/
theorem register_likewise (r : Repository) {J : Depot → Prop}
    (hJ : ∀ d registry, J d → d.registry.register r = .ok registry → J { d with registry }) :
    Likewise (.veil repo credential J) Eq ((Request.register r).call e)
      ((Request.register r).call e) := by
  refine Likewise.bind (Q := Eq) (likewise_update fun m m' s t _ h => ?_) fun _ _ _ =>
    likewise_pure rfl
  rw [← h.1.registry]
  cases hr : s.registry.register r with
  | error err => exact .error err
  | ok registry => exact .ok ⟨rfl, h.1.withRegistry registry, hJ s registry h.2 hr⟩

/-- The call of every request does likewise. A repository that it registers has no secret for the
credential. -/
theorem likewise (q : Request)
    (keyless : ∀ r, q = .register r → ∀ g, r.git = some g → g.Keyless secrets repo credential) :
    Likewise (like secrets repo credential) Eq (q.call e) (q.call e) := by
  cases q with
  | register r =>
    refine register_likewise e r fun d registry kept hr => ⟨kept.1, fun r' there => ?_⟩
    obtain ⟨n, found⟩ := Dict.mem_values_iff.1 there
    obtain known | ⟨-, rfl⟩ := Registry.get?_of_register hr found
    · exact kept.2 r' (Dict.mem_values_iff.2 ⟨n, known⟩)
    · exact kept.1 ▸ keyless r' rfl
  | unregister name => exact (unregister_likewise name).bind fun _ _ _ => likewise_pure rfl
  | repository name =>
    refine (query_likewise fun s t h => by rw [h.registry]).bind fun _ _ same => ?_
    exact likewise_pure (congrArg Reply.repository same)
  | repositories =>
    refine (read_likewise fun s t h => by rw [h.registry]).bind fun _ _ same => ?_
    exact likewise_pure (congrArg Reply.repositories same)
  | create r c =>
    exact (write_likewise e r .create c).bind fun _ _ same => likewise_pure (congrArg Reply.files same)
  | update r c =>
    exact (write_likewise e r .replace c).bind fun _ _ same => likewise_pure (congrArg Reply.files same)
  | delete k c => exact (delete_likewise e k c).bind fun _ _ _ => likewise_pure rfl
  | get k c =>
    exact (get_likewise e k c).bind fun _ _ same => likewise_pure (congrArg Reply.view same)
  | spec k =>
    refine Likewise.bind (Q := Eq) ?_ fun _ _ same => likewise_pure (congrArg Reply.spec same)
    refine (query_likewise fun s t h => by rw [h.store]).bind fun b _ same => ?_
    exact likewise_pure (congrArg Stored.spec same)
  | list f c =>
    exact (list_likewise e f c).bind fun _ _ same => likewise_pure (congrArg Reply.listing same)
  | functions c =>
    exact (functions_likewise c _).bind fun _ _ same => likewise_pure (congrArg Reply.functions same)

end Request

end PackageDepot
