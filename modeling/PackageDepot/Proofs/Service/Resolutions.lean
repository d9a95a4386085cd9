import PackageDepot.Proofs.Package.Key
import PackageDepot.Proofs.Service.Answers

/-!
# Two ways to name a published package

A package that is published in a registered repository can be resolved by its place in git or by the name of
its revision. The place is fetched with the credential of the first registered repository that has its
address, and the name leads to the credential of its own repository. `resolve_alike` says how the two
answers go together: where the first credential opens the repository (`Depot.Grants`) they are the same, and
else only the name may resolve. `resolutions_differ` shows such a depot.
-/

namespace PackageDepot

open Package Backend Call

/-! ## What resolving answers -/

namespace Depot

variable (d : Depot) (e : Engine)

/-- The credential for an address: that of the first registered repository which has it. -/
def credentialFor (repo : String) : Except Error (Option Credential) :=
  match d.registry.sourceOf? repo with
  | some source => d.credentialOf source
  | none => .ok none

/-- The credential for an address is there and opens the repository. -/
def Grants (repo : String) : Prop :=
  ∃ credential g, d.credentialFor repo = .ok credential ∧ d.git.access repo credential = .ok g

/-- What a place in git resolves to. -/
def resolveGit (location : GitLocation) : Except Error Resolved :=
  d.credentialFor location.repo >>= fun credential =>
    d.fetched location credential >>= fun f =>
      if f.commit.isEmpty then .error (.resolution (.noCommit location.repo location.ref))
      else .ok ⟨.ofGit ⟨location, f.commit⟩, f.files⟩

/-- What another revision resolves to. -/
def resolveRevision (k : Key) : Except Error Resolved :=
  (d.content e k).mapError
      (fun err => if err.kind = .notFound then .resolution (.revisionMissing k) else err) >>=
    fun content =>
      match content.lock with
      | some lock =>
        if lock.version.isEmpty then .error (.resolution (.revisionUnlocked k))
        else .ok ⟨lock, content.files⟩
      | none => .error (.resolution (.revisionUnlocked k))

/-- What the name of a revision resolves to. -/
def resolveName (name : String) : Except Error Resolved :=
  match Key.parse? name with
  | some k => d.resolveRevision e k
  | none => .error (.resolution (.badRevisionName name))

end Depot

namespace Resolve

variable {M : Moment → Prop} {c : Context} (quiet : c.Undisturbed M) (e : Engine) (d : Depot)

theorem credentialFor_answers (repo : String) :
    Answers M (credentialFor repo) d (d.credentialFor repo) := by
  apply (answers_read _).bind_ok
  unfold Depot.credentialFor
  cases d.registry.sourceOf? repo with
  | some source => exact Index.credential_answers d source
  | none => exact answers_pure none

include quiet

theorem git_answers (location : GitLocation) :
    Answers M (Resolve.source e (.ofGit location) c) d (d.resolveGit location) := by
  refine (credentialFor_answers d location.repo).bind fun credential =>
    (answers_within quiet _).bind fun f => ?_
  dsimp only
  split
  · exact answers_throw _
  · exact answers_pure _

theorem revision_answers (k : Key) : Answers M (revision e k c) d (d.resolveRevision e k) := by
  refine ((Index.lookup_answers e d quiet k).mapError _).bind fun content => ?_
  cases content.lock with
  | none => exact answers_throw _
  | some lock =>
    dsimp only
    split
    · exact answers_throw _
    · exact answers_pure _

theorem name_answers (name : String) :
    Answers M (Resolve.source e (.ofRevision name) c) d (d.resolveName e name) := by
  show Answers M (match Key.parse? name with | some k => revision e k c | none => _) d _
  unfold Depot.resolveName
  cases Key.parse? name with
  | some k => exact revision_answers quiet e d k
  | none => exact answers_throw _

end Resolve

/-! ## The two ways -/

/-- A package is published in a registered repository, under a key that can be written as a name and is not
stored. -/
structure Published (e : Engine) (d : Depot) (r : Repository) (p : Discovered) : Prop where
  found : d.registry.get? r.name = some r
  valid : r.validate = .ok ()
  scanned : ∃ ps, d.scan e r = .ok ps ∧ p ∈ ps
  package : ':' ∉ p.package.toList
  revision : ':' ∉ p.location.ref.toList
  absent : d.store.get? (p.key r.name) = none

/-- How a published package resolves by its place in git and by its name. -/
structure ResolvesAlike (e : Engine) (d : Depot) (r : Repository) (p : Discovered)
    (place name : Except Error Resolved) : Prop where
  by_place : ∀ M c, c.Undisturbed M →
    Answers M (Resolve.source e (.ofGit p.location) c) d place
  by_name : ∀ M c, c.Undisturbed M →
    Answers M (Resolve.source e (.ofRevision (p.key r.name).text) c) d name
  /-- The place resolves if the name does and the credential for the address opens the repository, and then
  to the same. -/
  alike : p.location.ref ≠ "" → ∀ resolved,
    place = .ok resolved ↔ d.Grants p.location.repo ∧ name = .ok resolved
  /-- The credential does open it if all repositories that are registered with the address ask for the same
  secret. -/
  granted : (∀ g source source', g ∈ d.registry.values → g.git = some source → r.git = some source' →
    source.repo = source'.repo → source.secretRef = source'.secretRef) → d.Grants p.location.repo
  /-- An empty revision cannot be named. -/
  unnamed : p.location.ref = "" →
    name = .error (.resolution (.badRevisionName (p.key r.name).text))

namespace Depot

variable {d : Depot} {e : Engine}

/-- An answer that is given unless a check fails. -/
theorem ok_unless_iff {α : Type} {b : Bool} {err : Error} {a x : α} :
    (if b then .error err else .ok a : Except Error α) = .ok x ↔ ¬ b = true ∧ x = a := by
  cases b with
  | true => exact ⟨nofun, fun h => (h.1 rfl).elim⟩
  | false =>
    constructor
    · rintro ⟨⟩
      exact ⟨nofun, rfl⟩
    · rintro ⟨-, rfl⟩
      rfl

theorem fetched_eq_ok {location : GitLocation} {credential : Option Credential} {f : Fetched}
    (h : d.fetched location credential = .ok f) : ∃ g commit,
      d.git.access location.repo credential = .ok g ∧ g.refs.get? location.ref = some commit ∧
        f = ⟨commit.id, below location.directory commit.files⟩ :=
  GitHost.fetch_eq_ok (mapError_eq_ok_iff.1 h)

/-- Two credentials that open a repository fetch the same from it. -/
theorem fetched_congr {location : GitLocation} {credential credential' : Option Credential}
    {g g' : GitRepo} (access : d.git.access location.repo credential = .ok g)
    (access' : d.git.access location.repo credential' = .ok g') :
    d.fetched location credential = d.fetched location credential' := by
  have same : g = g' :=
    Option.some.inj ((GitHost.access_ok access).symm.trans (GitHost.access_ok access'))
  subst same
  rw [fetched, fetched, GitHost.fetch, GitHost.fetch, access, access']

theorem resolveGit_eq_ok_iff {location : GitLocation} {resolved : Resolved} :
    d.resolveGit location = .ok resolved ↔ ∃ credential f,
      d.credentialFor location.repo = .ok credential ∧ d.fetched location credential = .ok f ∧
        f.commit ≠ "" ∧ resolved = ⟨.ofGit ⟨location, f.commit⟩, f.files⟩ := by
  have last : ∀ f : Fetched, (if f.commit.isEmpty then
      .error (.resolution (.noCommit location.repo location.ref))
      else .ok ⟨.ofGit ⟨location, f.commit⟩, f.files⟩ : Except Error Resolved) = .ok resolved ↔
        f.commit ≠ "" ∧ resolved = ⟨.ofGit ⟨location, f.commit⟩, f.files⟩ := by
    intro f
    rw [ne_eq, ← String.isEmpty_iff, ← ok_unless_iff]
  rw [resolveGit, bind_eq_ok_iff]
  constructor
  · rintro ⟨credential, hc, h⟩
    obtain ⟨f, hf, h⟩ := bind_eq_ok_iff.1 h
    exact ⟨credential, f, hc, hf, (last f).1 h⟩
  · rintro ⟨credential, f, hc, hf, h⟩
    exact ⟨credential, hc, bind_eq_ok_iff.2 ⟨f, hf, (last f).2 h⟩⟩

/-- A revision with a lock resolves to this lock, if that has a commit. -/
theorem resolveRevision_eq_ok_iff {k : Key} {x : Except Error Fetched} {lock : Lock}
    (content : d.content e k = x >>= fun f => .ok ⟨f.files, some lock⟩) {resolved : Resolved} :
    d.resolveRevision e k = .ok resolved ↔
      ∃ f, x = .ok f ∧ lock.version ≠ "" ∧ resolved = ⟨lock, f.files⟩ := by
  rw [resolveRevision, content]
  cases x with
  | error err =>
    constructor
    · intro h
      obtain ⟨_, h, -⟩ := bind_eq_ok_iff.1 h
      cases h
    · rintro ⟨f, h, -⟩
      cases h
  | ok f =>
    show (if lock.version.isEmpty then .error (.resolution (.revisionUnlocked k))
      else .ok ⟨lock, f.files⟩ : Except Error Resolved) = .ok resolved ↔ _
    rw [ok_unless_iff, String.isEmpty_iff]
    constructor
    · intro h
      exact ⟨f, rfl, h⟩
    · rintro ⟨_, ⟨⟩, h⟩
      exact h

end Depot

/-- **A published package resolves alike** by its place in git and by its name, as far as the credential for
the address opens the repository. -/
theorem resolve_alike (e : Engine) (d : Depot) (r : Repository) (p : Discovered)
    (h : Published e d r p) : ∃ place name, ResolvesAlike e d r p place name := by
  obtain ⟨found, valid, ⟨ps, scanned, hp⟩, package, revision, absent⟩ := h
  obtain ⟨-, rfl⟩ | ⟨source, credential, place, hc, hd⟩ := d.scan_ok scanned
  · cases hp
  obtain ⟨g, commit, access, offers⟩ := (GitHost.mem_discover_iff hd).1 hp
  rw [← offers.repo_eq] at access
  obtain ⟨named, free⟩ := r.name_of_validate valid
  have nonempty : p.package ≠ "" := by
    intro empty
    exact Backend.name_ne_nil offers.named (by rw [empty]; rfl)
  have content : d.content e (p.key r.name) =
      d.fetched p.location credential >>= fun f => .ok ⟨f.files, some p.lock⟩ := by
    simp only [Depot.content, absent]
    exact Depot.publishedContent_eq found scanned hp place hc
  -- The commit that is fetched is the commit of the scan, since nothing is published in between.
  have commits : ∀ f, d.fetched p.location credential = .ok f → f.commit = p.commit := by
    intro f hf
    obtain ⟨g', commit', access', stands, rfl⟩ := Depot.fetched_eq_ok hf
    cases access.symm.trans access'
    cases offers.stands.symm.trans stands
    exact offers.commit_eq.symm
  refine ⟨_, _, {
    by_place := fun M c quiet => Resolve.git_answers quiet e d p.location
    by_name := fun M c quiet => Resolve.name_answers quiet e d (p.key r.name).text
    alike := fun full resolved => ?_
    granted := fun same => ?_
    unnamed := fun empty => ?_ }⟩
  · have key : Key.parse? (p.key r.name).text = some (p.key r.name) :=
      Key.parse?_text_of_parts named nonempty full free package revision
    simp only [Depot.resolveName, key]
    rw [Depot.resolveGit_eq_ok_iff, Depot.resolveRevision_eq_ok_iff content]
    constructor
    · rintro ⟨credential', f, hc', hf, commit, rfl⟩
      obtain ⟨g', -, access', -⟩ := Depot.fetched_eq_ok hf
      rw [← Depot.fetched_congr access access'] at hf
      have version := commits f hf
      refine ⟨⟨credential', g', hc', access'⟩, f, hf, ?_, ?_⟩
      · show p.commit ≠ ""
        rwa [← version]
      · rw [version]
        rfl
    · rintro ⟨⟨credential', g', hc', access'⟩, f, hf, commit, rfl⟩
      refine ⟨credential', f, hc', ?_, ?_, ?_⟩
      · rwa [← Depot.fetched_congr access access']
      · rwa [commits f hf]
      · rw [commits f hf]
        rfl
  · have git := r.git_of_packageSource? place
    refine ⟨credential, g, ?_, access⟩
    cases first : d.registry.sourceOf? p.location.repo with
    | none =>
      have other := List.find?_eq_none.1 first source
        (List.mem_filterMap.2 ⟨r, List.mem_map.2 ⟨(r.name, r), Dict.get?_eq_some_iff.1 found, rfl⟩, git⟩)
      simp [offers.repo_eq] at other
    | some chosen =>
      have address : chosen.repo = source.repo := by
        rw [← offers.repo_eq]
        simpa using List.find?_some first
      obtain ⟨g', hg', place'⟩ := List.mem_filterMap.1 (List.mem_of_find?_eq_some first)
      have secret := same g' chosen source hg' place' git address
      simp only [Depot.credentialFor, first]
      simp only [Depot.credentialOf, GitSource.secret?] at hc ⊢
      rw [secret, address]
      exact hc
  · rw [Depot.resolveName, Key.parse?_text free package]
    simp [Discovered.key, empty]

/-! ## Two repositories at one address -/

namespace Twins

/-- The credential that the first repository in git asks for. -/
def credential : Credential := ⟨"reader", "open sesame"⟩

def files : Bundle := .ofList [("web/Kptfile", "manifest")]

/-- A repository in git that asks for a credential, and one that is open and has a ref without a name. -/
def host : GitHost :=
  ((GitHost.setRef ∅ "host/apps" "v1" ⟨"c1", files⟩).requireCredential "host/apps" credential).setRef
    "host/open" "" ⟨"c2", files⟩

/-- The first of two repositories at one address. It has no secret. -/
def bare : Repository := .ofGit "a" { repo := "host/apps" }

def locked : Repository := .ofGit "b" { repo := "host/apps", secretRef := ⟨"key"⟩ }

def unlocked : Repository := .ofGit "c" { repo := "host/open" }

def depot : Depot where
  git := host
  secrets := (∅ : Dict Credential).insert "key" credential
  registry := (((∅ : Registry).insert "a" bare).insert "b" locked).insert "c" unlocked

def web : Discovered := ⟨"web", ⟨"host/apps", "v1", "web"⟩, "c1"⟩

/-- A package whose revision has an empty name. -/
def nameless : Discovered := ⟨"web", ⟨"host/open", "", "web"⟩, "c2"⟩

theorem published_web : Published {} depot locked web where
  found := rfl
  valid := rfl
  scanned := ⟨[web], rfl, List.mem_singleton.2 rfl⟩
  package := by decide
  revision := by decide
  absent := rfl

theorem published_nameless : Published {} depot unlocked nameless where
  found := rfl
  valid := rfl
  scanned := ⟨[nameless], rfl, List.mem_singleton.2 rfl⟩
  package := by decide
  revision := by decide
  absent := rfl

end Twins

/-- The two ways go together for the package behind the secret. -/
theorem resolve_alike_twins : Published {} Twins.depot Twins.locked Twins.web ∧
    ∃ place name, ResolvesAlike {} Twins.depot Twins.locked Twins.web place name :=
  ⟨Twins.published_web, resolve_alike {} Twins.depot Twins.locked Twins.web Twins.published_web⟩

/-- But they do not come to the same: where the first of two repositories at an address has no secret, a
package of the second one resolves by its name only; and a package at a ref without a name resolves by its
place only. -/
theorem resolutions_differ :
    (Published {} Twins.depot Twins.locked Twins.web ∧ ∃ err resolved, ∀ M c, c.Undisturbed M →
      Answers M (Resolve.source {} (.ofGit Twins.web.location) c) Twins.depot (.error err) ∧
      Answers M (Resolve.source {} (.ofRevision (Twins.web.key Twins.locked.name).text) c) Twins.depot
        (.ok resolved)) ∧
    Published {} Twins.depot Twins.unlocked Twins.nameless ∧ ∃ resolved err, ∀ M c, c.Undisturbed M →
      Answers M (Resolve.source {} (.ofGit Twins.nameless.location) c) Twins.depot (.ok resolved) ∧
      Answers M (Resolve.source {} (.ofRevision (Twins.nameless.key Twins.unlocked.name).text) c)
        Twins.depot (.error err) := by
  refine ⟨⟨Twins.published_web, .ofBackend (.unauthorized "host/apps"),
    ⟨Twins.web.lock, below "web" Twins.files⟩, fun M c quiet => ⟨?_, ?_⟩⟩,
    Twins.published_nameless, ⟨Twins.nameless.lock, below "web" Twins.files⟩,
    .resolution (.badRevisionName "c:web:"), fun M c quiet => ⟨?_, ?_⟩⟩
  · exact Resolve.git_answers quiet {} Twins.depot Twins.web.location
  · exact Resolve.name_answers quiet {} Twins.depot "b:web:v1"
  · exact Resolve.git_answers quiet {} Twins.depot Twins.nameless.location
  · exact Resolve.name_answers quiet {} Twins.depot "c:web:"

end PackageDepot
