import PackageDepot.Proofs.Routine.Keeps
import PackageDepot.Proofs.Service.Answers
import PackageDepot.Proofs.Service.Parts

/-!
# Listings that are gathered from many depots

A listing reads the registry once, scans each repository once and reads the store once for each; others may
change the depot between any two of these steps. `Gathered e f J entries` says that the entries were put
together in this way from depots of `J`, whatever the order of the scans and of the readings: scans that
are made at one time are among them. `ends_list_ok` says that what `list` answers is gathered.
-/

namespace PackageDepot

open Package Backend Call

/-- What a scan of a repository gives on depots of `J`: what git has on one of them, with a credential that
is read on another one, or nothing. -/
inductive ScanGives (e : Engine) (J : Depot → Prop) (r : Repository) : List Discovered → Prop
  | nothing : ScanGives e J r []
  | found {d d' : Depot} {source : GitSource} {credential : Option Credential} {ps : List Discovered}
    (place : r.packageSource? = some source) (hj' : J d')
    (secret : d'.credentialOf source = .ok credential) (hj : J d)
    (finds : d.git.discover source e.indexManifest credential = .ok ps) : ScanGives e J r ps

/-- The package of an entry is published in git, in the place of a repository. -/
def Depot.Publishes (d : Depot) (e : Engine) (r : Repository) (s : Summary) : Prop :=
  ∃ source g p commit, r.packageSource? = some source ∧ d.git.get? source.repo = some g ∧
    g.Offers source e.indexManifest p commit ∧ s = p.summary r.name

/-- How the part of a repository is gathered on depots of `J`: the created revisions are read from one of
them, and the packages are what a scan gives. -/
structure Part.Gathered (e : Engine) (J : Depot → Prop) (r : Repository) (p : Part) : Prop where
  name_eq : p.name = r.name
  created : ∃ d, J d ∧ p.created = d.store.list (some r.name)
  packages : ScanGives e J r p.packages

/-- A listing that is gathered on depots of `J`: one of them has the repositories, and each of these that
the filter admits gives a part. -/
def Gathered (e : Engine) (f : Filter) (J : Depot → Prop) (entries : List Summary) : Prop :=
  ∃ (d : Depot) (parts : List (Repository × Part)), J d ∧
    parts.map Prod.fst = d.registry.values.filter f.admits ∧
    (∀ p ∈ parts, Part.Gathered e J p.1 p.2) ∧ entries = (parts.map fun p => p.2.entries).flatten

/-- A scan gives a package at most once at a ref. -/
theorem ScanGives.nodup {e : Engine} {J : Depot → Prop} {r : Repository} {ps : List Discovered}
    (h : ScanGives e J r ps) : (ps.map fun p => (p.package, p.location.ref)).Nodup := by
  cases h with
  | nothing => exact List.nodup_nil
  | found _ _ _ _ finds => exact GitHost.discover_nodup finds

/-- What a scan gives is published on one of the depots. -/
theorem ScanGives.publishes {e : Engine} {J : Depot → Prop} {r : Repository} {ps : List Discovered}
    (h : ScanGives e J r ps) {p : Discovered} (hp : p ∈ ps) :
    ∃ d, J d ∧ d.Publishes e r (p.summary r.name) := by
  cases h with
  | nothing => cases hp
  | @found d _ source _ _ place _ _ hj finds =>
    obtain ⟨g, commit, access, offers⟩ := (GitHost.mem_discover_iff finds).1 hp
    exact ⟨d, hj, source, g, p, commit, place, GitHost.access_ok access, offers, rfl⟩

/-- The parts of a gathered listing have increasing names, and there is one for each repository that the
filter admits. -/
theorem Gathered.parts {e : Engine} {f : Filter} {J : Depot → Prop} {entries : List Summary}
    (tidy : ∀ d, J d → d.Tidy) (h : Gathered e f J entries) : ∃ (d : Depot) (ps : List Part), J d ∧
      entries = (ps.map Part.entries).flatten ∧ (ps.Pairwise fun p q => p.name < q.name) ∧
      (∀ p ∈ ps, ∃ r, d.registry.get? p.name = some r ∧ f.admits r = true ∧ p.Gathered e J r) ∧
      ∀ name r, d.registry.get? name = some r → f.admits r = true → ∃ p ∈ ps, p.Gathered e J r := by
  obtain ⟨d, parts, hj, repositories, gathered, rfl⟩ := h
  have mem_iff : ∀ r, r ∈ parts.map Prod.fst ↔ d.registry.get? r.name = some r ∧ f.admits r = true := by
    intro r
    rw [repositories, List.mem_filter, (tidy d hj).mem_values_iff]
  have names : (parts.map Prod.snd).Pairwise fun p q => p.name < q.name := by
    have increasing := (tidy d hj).values_increasing.filter f.admits
    rw [← repositories] at increasing
    refine List.pairwise_map.2 ((List.pairwise_map.1 increasing).imp_of_mem fun hp hq hlt => ?_)
    rwa [(gathered _ hp).name_eq, (gathered _ hq).name_eq]
  refine ⟨d, parts.map Prod.snd, hj, by rw [List.map_map]; rfl, names, ?_, ?_⟩
  · intro p hp
    obtain ⟨x, hx, rfl⟩ := List.mem_map.1 hp
    obtain ⟨found, admits⟩ := (mem_iff x.1).1 (List.mem_map.2 ⟨x, hx, rfl⟩)
    exact ⟨x.1, by rwa [(gathered x hx).name_eq], admits, gathered x hx⟩
  · intro name r found admits
    have name_eq := (tidy d hj).named name r found
    obtain ⟨x, hx, rfl⟩ := List.mem_map.1 ((mem_iff r).2 ⟨by rwa [name_eq], admits⟩)
    exact ⟨x.2, List.mem_map.2 ⟨x, hx, rfl⟩, gathered x hx⟩

namespace Call

variable {α β γ : Type} {env : Depot → Depot → Prop} {M : Moment → Prop} {s t : Depot}

/-- A call for every element of a list that succeeds gives an answer to each, where `c` tells what is known of
the answer `g a c` to the element `a`. -/
theorem ends_mapM_ok {f : α → Call β} {P : α → γ → Prop} {g : α → γ → β} {l : List α}
    (hf : ∀ a ∈ l, ∀ s b t, Routine.Ends env M (f a).run s (.ok b) t → ∃ c, P a c ∧ b = g a c)
    {bs : List β} (h : Routine.Ends env M (l.mapM f).run s (.ok bs) t) :
    ∃ ps : List (α × γ), ps.map Prod.fst = l ∧ bs = ps.map (fun p => g p.1 p.2) ∧
      ∀ p ∈ ps, P p.1 p.2 := by
  induction l generalizing s t bs with
  | nil =>
    rw [List.mapM_nil] at h
    cases (ends_pure_iff.1 h).1
    exact ⟨[], rfl, rfl, nofun⟩
  | cons a l ih =>
    rw [List.mapM_cons] at h
    obtain ⟨b, u, ha, h⟩ := ends_bind_ok h
    obtain ⟨bs', v, hl, h⟩ := ends_bind_ok h
    cases (ends_pure_iff.1 h).1
    obtain ⟨c, here, rfl⟩ := hf a List.mem_cons_self s b u ha
    obtain ⟨ps, rfl, rfl, there⟩ := ih (fun a' ha' => hf a' (List.mem_cons_of_mem a ha')) hl
    refine ⟨(a, c) :: ps, rfl, rfl, fun p hp => ?_⟩
    obtain rfl | hp := List.mem_cons.1 hp
    · exact here
    · exact there p hp

end Call

namespace Index

variable {e : Engine} {c : Context} {J : Depot → Prop} {d t : Depot}

/-- Looking for a credential reads one depot. -/
theorem within_credential_ok (hJ : ∃ d, J d) {source : GitSource} {credential : Option Credential}
    (h : Routine.Within J (Index.credential source).run d (.ok credential) t) :
    ∃ d', J d' ∧ d'.credentialOf source = .ok credential := by
  unfold Index.credential at h
  cases secret : source.secret? with
  | none =>
    rw [secret] at h
    cases (ends_pure_iff.1 h).1
    obtain ⟨d', hj⟩ := hJ
    refine ⟨d', hj, ?_⟩
    simp only [Depot.credentialOf, secret]
  | some name =>
    rw [secret] at h
    obtain ⟨-, hj, he⟩ := ends_query_iff.1 h
    refine ⟨t, hj, ?_⟩
    simp only [Depot.credentialOf, secret]
    exact he.symm

/-- What a scan finds is in git on one of the depots. -/
theorem within_discover_ok {r : Repository} {ps : List Discovered}
    (h : Routine.Within J (discover e r c).run d (.ok ps) t) : ScanGives e J r ps := by
  unfold discover at h
  cases place : r.packageSource? with
  | none =>
    rw [place] at h
    cases (ends_pure_iff.1 h).1
    exact .nothing
  | some source =>
    rw [place] at h
    obtain ⟨credential, u, hc, hw⟩ := ends_bind_ok h
    obtain ⟨m, -, hj, ⟨i, -, he⟩ | ⟨-, he⟩⟩ := ends_within_iff.1 hw
    · cases he
    · obtain ⟨d', hj', secret⟩ := within_credential_ok ⟨t, hj⟩ hc
      exact .found place hj' secret hj (mapError_eq_ok_iff.1 he.symm)

/-- The entries of a repository are those of a part. -/
theorem within_entriesOf_ok (tidy : ∀ d, J d → d.Tidy) {r : Repository}
    {scan : Except Error (List Discovered)} (scanned : ∀ ps, scan = .ok ps → ScanGives e J r ps)
    {entries : List Summary} (h : Routine.Within J (entriesOf r scan).run d (.ok entries) t) :
    ∃ p : Part, Part.Gathered e J r p ∧ entries = p.entries := by
  obtain ⟨created, u, hr, h⟩ := ends_bind_ok h
  obtain ⟨-, hj, hr⟩ := ends_read_iff.1 hr
  cases hr
  cases scan with
  | ok ps =>
    cases (ends_pure_iff.1 h).1
    exact ⟨u.part (tidy u hj) r.name ps (scanned ps rfl).nodup, ⟨rfl, ⟨u, hj, rfl⟩, scanned ps rfl⟩,
      rfl⟩
  | error err =>
    dsimp only at h
    split at h
    · cases (ends_throw_iff.1 h).1
    · cases (ends_pure_iff.1 h).1
      refine ⟨u.part (tidy u hj) r.name [] List.nodup_nil, ⟨rfl, ⟨u, hj, rfl⟩, .nothing⟩, ?_⟩
      exact (List.append_nil _).symm

/-- **What `list` answers is gathered** on the depots on which its steps are made. -/
theorem within_list_ok (tidy : ∀ d, J d → d.Tidy) {f : Filter} {entries : List Summary}
    (h : Routine.Within J (list e f c).run d (.ok entries) t) : Gathered e f J entries := by
  obtain ⟨repositories, u, hr, hx⟩ := ends_bind_ok h
  obtain ⟨-, hj, hr⟩ := ends_read_iff.1 hr
  cases hr
  obtain ⟨scans, v, hs, hy⟩ := ends_bind_ok hx
  obtain ⟨sections, w, he, hz⟩ := ends_bind_ok hy
  cases (ends_pure_iff.1 hz).1
  obtain ⟨outcomes, names, rfl, given⟩ := ends_mapM_ok (g := Prod.mk)
    (P := fun r outcome => ∀ ps, outcome = .ok ps → ScanGives e J r ps) (fun r _ s b t h => by
      obtain ⟨outcome, u, ha, hp⟩ := ends_bind_ok h
      obtain ⟨x, hd, hx⟩ := ends_attempt_iff.1 ha
      cases hx
      cases (ends_pure_iff.1 hp).1
      refine ⟨outcome, ?_, rfl⟩
      rintro ps rfl
      exact within_discover_ok hd) hs
  rw [show outcomes.map (fun p => (p.1, p.2)) = outcomes from List.map_id _] at he
  obtain ⟨parts, scanned, rfl, gathered⟩ := ends_mapM_ok (g := fun _ p => Part.entries p)
    (P := fun s p => Part.Gathered e J s.1 p)
    (fun s hs _ _ _ h => within_entriesOf_ok tidy (given s hs) h) he
  refine ⟨u, parts.map fun p => (p.1.1, p.2), hj, ?_, ?_, ?_⟩
  · rw [← names, ← scanned, List.map_map, List.map_map]
    rfl
  · intro p hp
    obtain ⟨q, hq, rfl⟩ := List.mem_map.1 hp
    exact gathered q hq
  · rw [List.map_map]
    rfl

end Index

end PackageDepot
