import PackageDepot.Proofs.Service.Runs
import PackageDepot.Proofs.Store.Lookup

/-!
# Reading a stored revision

A depot is `Tidy` if every key is stored once and every repository is registered under its own name. In
a tidy depot a listing of all revisions shows a stored revision of a registered repository once, as
created and with the lock of its manifest, whatever the scans of the repositories come to
(`alone_list`). `alone_get_iff` and `alone_spec_iff` are for the readers that ask for one key.
-/

namespace PackageDepot

open Package Backend Call

/-- Every key is stored once, and every repository is registered under its own name. -/
structure Depot.Tidy (d : Depot) : Prop where
  keys : (d.store.revisions.map Stored.key).Nodup
  named : ∀ n g, d.registry.get? n = some g → g.name = n

/-- The failure of a call whose context was interrupted at one of these moments. -/
def Context.Interrupts (c : Context) (M : Moment → Prop) (err : Error) : Prop :=
  ∃ m i, M m ∧ c.interrupt? m = some i ∧ err = .cancelled i

/-- The repository that is registered under a name occurs once among all repositories. -/
theorem Depot.Tidy.values_filter {d : Depot} (tidy : d.Tidy) {n : String} {g : Repository}
    (found : d.registry.get? n = some g) : d.registry.values.filter (fun r => r.name = n) = [g] := by
  have entry : ∀ x ∈ d.registry.toList, x.2.name = x.1 := by
    intro x hx
    exact tidy.named x.1 x.2 (Dict.get?_eq_some_iff.2 hx)
  have names : d.registry.values.map Repository.name = d.registry.keys := by
    rw [Dict.values, Dict.keys, List.map_map]
    exact List.map_congr_left entry
  have distinct : (d.registry.values.map Repository.name).Nodup := by
    rw [names]
    exact d.registry.keys_nodup
  have there : g ∈ d.registry.values :=
    List.mem_map.2 ⟨(n, g), Dict.get?_eq_some_iff.1 found, rfl⟩
  rw [← tidy.named n g found]
  exact filter_eq_singleton distinct there

namespace Index

variable {e : Engine} {c : Context} {M : Moment → Prop} {d t : Depot}

/-- Looking for a credential is not cancelled. -/
theorem alone_credential {source : GitSource} {err : Error}
    (h : Routine.Alone M (credential source).run d (.error err) t) : err.kind ≠ .cancelled := by
  unfold credential at h
  split at h
  · cases (ends_pure_iff.1 h).1
  · obtain ⟨-, -, he⟩ := ends_query_iff.1 h
    split at he
    · cases he
    · cases he
      nofun

/-- A scan leaves the depot as it is, and an interrupt is the only cause of a cancellation. -/
theorem alone_discover {r : Repository} {b : Except Error (List Discovered)}
    (h : Routine.Alone M (discover e r c).run d b t) :
    t = d ∧ ∀ err, b = .error err → err.kind = .cancelled → c.Interrupts M err := by
  have still := ((discover_quiet e r c).ends h).1
  refine ⟨still, ?_⟩
  rintro err rfl hk
  unfold discover at h
  cases hs : r.packageSource? with
  | none =>
    simp only [hs] at h
    cases (ends_pure_iff.1 h).1
  | some source =>
    simp only [hs] at h
    obtain ⟨credential, u, -, h⟩ | ⟨err', h, he⟩ := ends_bind_iff.1 h
    · obtain ⟨m, hm, -, ⟨i, hi, he⟩ | ⟨-, he⟩⟩ := ends_within_iff.1 h
      · cases he
        exact ⟨m, i, hm, hi, rfl⟩
      · cases hf : t.git.discover source e.indexManifest credential with
        | ok packages =>
          rw [hf] at he
          cases he
        | error f =>
          rw [hf] at he
          cases he
          cases f <;> cases hk
    · cases he
      exact (alone_credential h hk).elim

/-- The created revisions of a repository, as a listing shows them: a stored one is among those of its
own repository and not among those of another one. -/
theorem list_filter_key (tidy : d.Tidy) {k : Key} {b : Stored} (stored : d.store.get? k = some b)
    (name : String) : ((d.store.list (some name)).map Stored.summary).filter (fun s => s.key = k) =
      if name = k.repository then [b.summary] else [] := by
  have mine : ∀ o : Stored, o.key = k → o.spec.repository = k.repository := by
    rintro o rfl
    rfl
  rw [List.filter_map, Store.list, List.filter_filter]
  split
  · next hn =>
    have same : d.store.revisions.filter (fun o => decide ((Stored.summary o).key = k) &&
        (some name).all fun n => o.spec.repository == n) =
          d.store.revisions.filter fun o => o.key = k := by
      apply List.filter_congr
      intro o _
      by_cases ho : o.key = k
      · simp [Stored.summary, ho, mine o ho, hn]
      · simp [Stored.summary, ho]
    exact (congrArg (List.map Stored.summary) same).trans
      (congrArg (List.map Stored.summary) (Store.filter_key tidy.keys stored))
  · next hn =>
    have none : d.store.revisions.filter (fun o => decide ((Stored.summary o).key = k) &&
        (some name).all fun n => o.spec.repository == n) = [] := by
      rw [List.filter_eq_nil_iff]
      intro o _ ho
      simp only [Bool.and_eq_true, decide_eq_true_eq, Option.all_some, beq_iff_eq] at ho
      exact hn (ho.2.symm.trans (mine o ho.1))
    exact congrArg (List.map Stored.summary) none

/-- The entries of one repository, in a tidy depot that stores a revision. -/
theorem alone_entriesOf (tidy : d.Tidy) {k : Key} {b : Stored} (stored : d.store.get? k = some b)
    {r : Repository} {scan : Except Error (List Discovered)} {a : Except Error (List Summary)}
    (hscan : ∀ err, scan = .error err → err.kind = .cancelled → c.Interrupts M err)
    (h : Routine.Alone M (entriesOf r scan).run d a t) : t = d ∧
      ((∃ entries, a = .ok entries ∧ entries.filter (fun s => s.key = k) =
        if r.name = k.repository then [b.summary] else []) ∨
        ∃ err, a = .error err ∧ c.Interrupts M err) := by
  unfold entriesOf at h
  obtain ⟨created, u, hr, h⟩ | ⟨err, hr, -⟩ := ends_bind_iff.1 h
  · obtain ⟨-, rfl, hr⟩ := ends_read_iff.1 hr
    cases hr
    have shown := list_filter_key tidy stored r.name
    cases scan with
    | ok packages =>
      obtain ⟨rfl, rfl⟩ := ends_pure_iff.1 h
      refine ⟨rfl, .inl ⟨_, rfl, ?_⟩⟩
      -- A published revision with this key is of the repository of the key, where it is left out.
      have hidden : ((packages.map fun p => p.summary r.name).filter fun s =>
          !(List.map Stored.key (t.store.list (some r.name))).contains s.key).filter
            (fun s => s.key = k) = [] := by
        rw [List.filter_filter, List.filter_eq_nil_iff]
        intro s hs
        obtain ⟨p, -, rfl⟩ := List.mem_map.1 hs
        intro hp
        rw [Bool.and_eq_true, decide_eq_true_eq, Bool.not_eq_true'] at hp
        obtain ⟨rfl, fresh⟩ := hp
        have place : b.spec.repository = r.name :=
          congrArg Key.repository (Store.key_of_get? stored)
        have listed : b ∈ t.store.list (some r.name) := by
          rw [Store.list, List.mem_filter]
          exact ⟨Store.mem_of_get? stored, by simp [place]⟩
        have known := List.contains_iff_mem.2 (List.mem_map.2 ⟨b, listed, Store.key_of_get? stored⟩)
        rw [known] at fresh
        cases fresh
      rw [List.filter_append, shown, hidden, List.append_nil]
    | error err =>
      simp only at h
      split at h
      · next hk =>
        obtain ⟨rfl, rfl⟩ := ends_throw_iff.1 h
        exact ⟨rfl, .inr ⟨err, rfl, hscan err rfl hk⟩⟩
      · obtain ⟨rfl, rfl⟩ := ends_pure_iff.1 h
        exact ⟨rfl, .inl ⟨_, rfl, shown⟩⟩
  · cases (ends_read_iff.1 hr).2.2

/-- The scans of repositories, one behind the other. They are all made, also if one of them fails. -/
theorem alone_scans {rs : List Repository}
    {a : Except Error (List (Repository × Except Error (List Discovered)))}
    (h : Routine.Alone M (rs.mapM fun r => do return (r, ← attempt (discover e r c)) : Call _).run
      d a t) : t = d ∧ ∃ scans, a = .ok scans ∧ scans.map Prod.fst = rs ∧
        ∀ s ∈ scans, ∀ err, s.2 = .error err → err.kind = .cancelled → c.Interrupts M err := by
  have scan : ∀ r ∈ rs, ∀ b u, Routine.Alone M
      (do return (r, ← attempt (discover e r c)) : Call (Repository × _)).run d b u → u = d ∧
        ((∃ v, b = .ok v ∧ v.1 = r ∧
          ∀ err, v.2 = .error err → err.kind = .cancelled → c.Interrupts M err) ∨
            ∃ err, b = .error err ∧ False) := by
    intro r _ b u h
    obtain ⟨outcome, w, hs, hr⟩ | ⟨err, hs, -⟩ := ends_bind_iff.1 h
    · obtain ⟨v, hs, hv⟩ := ends_attempt_iff.1 hs
      obtain ⟨rfl, rfl⟩ := ends_pure_iff.1 hr
      cases hv
      obtain ⟨rfl, cancelled⟩ := alone_discover hs
      exact ⟨rfl, .inl ⟨_, rfl, rfl, cancelled⟩⟩
    · obtain ⟨v, -, hv⟩ := ends_attempt_iff.1 hs
      cases hv
  obtain ⟨rfl, ⟨ps, rfl, rfl, hps⟩ | ⟨err, -, no⟩⟩ := alone_mapM scan h
  · refine ⟨rfl, _, rfl, ?_, ?_⟩
    · rw [List.map_map]
      exact List.map_congr_left fun p hp => (hps p hp).1
    · intro s hs
      obtain ⟨p, hp, rfl⟩ := List.mem_map.1 hs
      exact (hps p hp).2
  · exact no.elim

/-- The repository of a key gives one entry, and the others give none. -/
theorem flatten_sections (tidy : d.Tidy) {n : String} {g : Repository}
    (found : d.registry.get? n = some g) (entry : Summary) :
    (d.registry.values.map fun r => if r.name = n then [entry] else []).flatten = [entry] := by
  have once : ∀ rs : List Repository,
      (rs.map fun r => if r.name = n then [entry] else []).flatten =
        (rs.filter fun r => r.name = n).map fun _ => entry := by
    intro rs
    induction rs with
    | nil => rfl
    | cons r rs ih =>
      rw [List.map_cons, List.flatten_cons, ih, List.filter_cons]
      by_cases hn : r.name = n
      · simp [hn]
      · simp [hn]
  rw [once, tidy.values_filter found]
  rfl

/-- The entries of all repositories that were scanned. -/
theorem alone_sections (tidy : d.Tidy) {k : Key} {b : Stored} (stored : d.store.get? k = some b)
    {scans : List (Repository × Except Error (List Discovered))}
    (cancelled : ∀ s ∈ scans, ∀ err, s.2 = .error err → err.kind = .cancelled → c.Interrupts M err)
    {a : Except Error (List (List Summary))}
    (h : Routine.Alone M (scans.mapM fun s => entriesOf s.1 s.2).run d a t) : t = d ∧
      ((∃ sections, a = .ok sections ∧ sections.flatten.filter (fun s => s.key = k) =
        ((scans.map Prod.fst).map fun r =>
          if r.name = k.repository then [b.summary] else []).flatten) ∨
        ∃ err, a = .error err ∧ c.Interrupts M err) := by
  obtain ⟨rfl, ⟨ps, rfl, rfl, hps⟩ | fails⟩ :=
    alone_mapM (fun s hs a t h => alone_entriesOf tidy stored (cancelled s hs) h) h
  · refine ⟨rfl, .inl ⟨_, rfl, ?_⟩⟩
    rw [List.filter_flatten, List.map_map, List.map_map, List.map_map]
    congr 1
    exact List.map_congr_left hps
  · exact ⟨rfl, .inr fails⟩

/-- **A listing** of all revisions of a tidy depot shows a stored revision of a registered repository
once. It fails only if its context is interrupted. -/
theorem alone_list (tidy : d.Tidy) {k : Key} {b : Stored} (stored : d.store.get? k = some b)
    {g : Repository} (found : d.registry.get? k.repository = some g)
    {a : Except Error (List Summary)} (h : Routine.Alone M (list e {} c).run d a t) : t = d ∧
      ((∃ entries, a = .ok entries ∧ entries.filter (fun s => s.key = k) = [b.summary]) ∨
        ∃ err, a = .error err ∧ c.Interrupts M err) := by
  unfold list at h
  obtain ⟨repositories, u, hr, hx⟩ | ⟨err, hr, -⟩ := ends_bind_iff.1 h
  · obtain ⟨-, rfl, hr⟩ := ends_read_iff.1 hr
    have all : d.registry.values.filter (Filter.admits {}) = d.registry.values :=
      List.filter_eq_self.2 fun _ _ => rfl
    rw [all] at hr
    cases hr
    obtain ⟨scans, v, hs, hy⟩ | ⟨err, hs, -⟩ := ends_bind_iff.1 hx
    · obtain ⟨rfl, scans, hs, names, cancelled⟩ := alone_scans hs
      cases hs
      obtain ⟨sections, w, hs, hz⟩ | ⟨err, hs, rfl⟩ := ends_bind_iff.1 hy
      · obtain ⟨rfl, ⟨sections, hv, shown⟩ | ⟨err, hv, -⟩⟩ := alone_sections tidy stored cancelled hs
        · cases hv
          obtain ⟨rfl, rfl⟩ := ends_pure_iff.1 hz
          refine ⟨rfl, .inl ⟨_, rfl, ?_⟩⟩
          rw [shown, names]
          exact flatten_sections tidy found _
        · cases hv
      · obtain ⟨rfl, ⟨sections, hv, -⟩ | ⟨err', hv, interrupted⟩⟩ :=
          alone_sections tidy stored cancelled hs
        · cases hv
        · cases hv
          exact ⟨rfl, .inr ⟨_, rfl, interrupted⟩⟩
    · obtain ⟨-, scans, hs, -⟩ := alone_scans hs
      cases hs
  · cases (ends_read_iff.1 hr).2.2

end Index

namespace Service

variable {M : Moment → Prop} {d t : Depot} {k : Key} {b : Stored}

/-- A stored revision is read from the store, with its manifest. -/
theorem alone_get_iff (stored : d.store.get? k = some b) {e : Engine} {c : Context}
    {a : Except Error RevisionView} : Routine.Alone M (get e k c).run d a t ↔
      (∃ m, M m) ∧ a = .ok ⟨.ofKey k b.files, some b.kptfile⟩ ∧ t = d := by
  unfold get
  rw [Routine.Alone, ends_bind_iff]
  constructor
  · rintro (⟨found, u, hr, h⟩ | ⟨err, hr, -⟩)
    · obtain ⟨hM, rfl, hr⟩ := ends_read_iff.1 hr
      rw [stored] at hr
      cases hr
      obtain ⟨rfl, rfl⟩ := ends_pure_iff.1 h
      exact ⟨hM, rfl, rfl⟩
    · cases (ends_read_iff.1 hr).2.2
  · rintro ⟨hM, rfl, rfl⟩
    refine .inl ⟨some b, t, ends_read_iff.2 ⟨hM, rfl, ?_⟩, ends_pure_iff.2 ⟨rfl, rfl⟩⟩
    rw [stored]

/-- The request of a stored revision. -/
theorem alone_spec_iff (stored : d.store.get? k = some b) {a : Except Error Revision} :
    Routine.Alone M (spec k).run d a t ↔ (∃ m, M m) ∧ a = .ok b.spec ∧ t = d := by
  have found : d.store.find k = .ok b := by
    rw [Store.find, stored]
  unfold spec
  rw [Routine.Alone, ends_bind_iff]
  constructor
  · rintro (⟨s, u, hr, h⟩ | ⟨err, hr, -⟩)
    · obtain ⟨hM, rfl, hr⟩ := ends_query_iff.1 hr
      rw [found] at hr
      cases hr
      obtain ⟨rfl, rfl⟩ := ends_pure_iff.1 h
      exact ⟨hM, rfl, rfl⟩
    · obtain ⟨-, rfl, hr⟩ := ends_query_iff.1 hr
      rw [found] at hr
      cases hr
  · rintro ⟨hM, rfl, rfl⟩
    exact .inl ⟨b, t, ends_query_iff.2 ⟨hM, rfl, found.symm⟩, ends_pure_iff.2 ⟨rfl, rfl⟩⟩

end Service

end PackageDepot
