import PackageDepot.Store

/-!
# What the store has under a key

Each operation of the store is told by what `Store.get?` answers after it. `Committed l r snapshot s b t`
lists all that a commit does; `commit_ok` proves it and `commit_error` names the two ways to fail. What a
revision holds besides its times and its number is its `Stored.substance`.
-/

namespace PackageDepot

open Package

/-- What a stored revision holds, whenever it was written. -/
structure Substance where
  spec : Revision
  files : Bundle
  kptfile : Kptfile

/-- What a stored revision holds. -/
def Stored.substance (b : Stored) : Substance := ⟨b.spec, b.files, b.kptfile⟩

/-- Where no two have the same image, each is the only one with its image. -/
theorem filter_eq_singleton {α κ : Type} [DecidableEq κ] {f : α → κ} {l : List α}
    (hl : (l.map f).Nodup) {a : α} (ha : a ∈ l) : l.filter (fun b => f b = f a) = [a] := by
  induction l with
  | nil => cases ha
  | cons b l ih =>
    obtain ⟨fresh, hl⟩ := List.nodup_cons.1 hl
    have fresh : ∀ c ∈ l, f c ≠ f b := fun c hc h => fresh (List.mem_map.2 ⟨c, hc, h⟩)
    obtain rfl | ha := List.mem_cons.1 ha
    · have none : l.filter (fun c => f c = f a) = [] := by
        rw [List.filter_eq_nil_iff]
        intro c hc
        simpa using fresh c hc
      rw [List.filter_cons_of_pos (by simp), none]
    · have hb : f b ≠ f a := (fresh a ha).symm
      rw [List.filter_cons_of_neg (by simpa using hb)]
      exact ih hl ha

namespace Store

theorem get?_append (rs qs : List Stored) (k : Key) (s : Store) (h : s.revisions = rs ++ qs) :
    s.get? k = (rs.find? fun r => r.key = k).or (qs.find? fun r => r.key = k) := by
  rw [get?, h, List.find?_append]

theorem key_of_get? {s : Store} {k : Key} {b : Stored} (h : s.get? k = some b) : b.key = k := by
  simpa using List.find?_some h

theorem mem_of_get? {s : Store} {k : Key} {b : Stored} (h : s.get? k = some b) :
    b ∈ s.revisions :=
  List.mem_of_find?_eq_some h

/-- A stored revision is found under its key, it or another one with the same key. -/
theorem get?_isSome_of_mem {s : Store} {b : Stored} (h : b ∈ s.revisions) :
    (s.get? b.key).isSome := by
  rw [get?, List.find?_isSome]
  exact ⟨b, h, by simp⟩

theorem get?_erase (s : Store) (k j : Key) :
    (s.erase k).get? j = if j = k then none else s.get? j := by
  simp only [get?, erase, List.find?_filter]
  split
  · next h =>
    subst h
    simp
  · next h =>
    congr 1
    funext r
    by_cases hr : r.key = j
    · simp [hr, h]
    · simp [hr]

/-- To take out what is not there does nothing. -/
theorem erase_of_get?_none {s : Store} {k : Key} (h : s.get? k = none) : s.erase k = s := by
  have hall : ∀ r ∈ s.revisions, decide (r.key ≠ k) = true := by
    intro r hr
    have hn := List.find?_eq_none.1 h r hr
    simpa using hn
  rw [erase, List.filter_eq_self.2 hall]

/-- Nothing is left of a lease that was free when it was taken. -/
theorem release_acquire {s : Store} {k : Key} (free : s.isBusy k = false) :
    (s.acquire k).release k = s := by
  have hall : ∀ j ∈ s.inFlight, decide (j ≠ k) = true := by
    intro j hj
    rw [decide_eq_true_iff]
    rintro rfl
    rw [isBusy, List.contains_iff_mem.2 hj] at free
    cases free
  rw [release, acquire, List.filter_cons_of_neg (by simp), List.filter_eq_self.2 hall]

theorem get?_purge (s : Store) (n : String) (j : Key) :
    (s.purge n).get? j = if j.repository = n then none else s.get? j := by
  simp only [get?, purge, List.find?_filter]
  split
  · next h =>
    subst h
    rw [List.find?_eq_none]
    intro r _
    by_cases hr : r.key = j <;> simp [hr]
  · next h =>
    congr 1
    funext r
    by_cases hr : r.key = j
    · simp [hr, h]
    · simp [hr]

/-- Putting a revision in the place of the one with its key. -/
theorem find?_replace (rs : List Stored) {b : Stored} {k : Key} (hb : b.key = k) (j : Key) :
    (rs.map fun o => if o.key = k then b else o).find? (fun r => r.key = j) =
      if j = k then (rs.find? fun r => r.key = j).map fun _ => b
      else rs.find? fun r => r.key = j := by
  induction rs with
  | nil => simp
  | cons o rs ih =>
    rw [List.map_cons, List.find?_cons, List.find?_cons, ih]
    by_cases ho : o.key = k
    · by_cases hj : j = k
      · simp [ho, hj, hb]
      · have hbj : k ≠ j := fun h => hj h.symm
        simp [ho, hj, hb, hbj]
    · by_cases hoj : o.key = j
      · have hj : j ≠ k := fun h => ho (hoj.trans h)
        simp [hoj, hj]
      · simp [ho, hoj]

/-- What a commit of `b` with the lease `l` makes of the store `s`. -/
structure Committed (l : Lease) (spec : Revision) (snapshot : Snapshot) (s : Store) (b : Stored)
    (t : Store) : Prop where
  spec_eq : b.spec = spec
  key_eq : b.key = l.key
  files_eq : b.files = snapshot.files
  kptfile_eq : b.kptfile = snapshot.kptfile
  get?_eq : ∀ j, t.get? j = if j = l.key then some b else s.get? j
  inFlight_eq : t.inFlight = s.inFlight
  created : l.intent = .create → s.get? l.key = none ∧ t.revisions = s.revisions ++ [b]
  replaced : l.intent = .replace → (s.get? l.key).isSome ∧
    t.revisions = s.revisions.map fun o => if o.key = l.key then b else o

theorem commit_ok {s t : Store} {l : Lease} {spec : Revision} {snapshot : Snapshot} {now : Time}
    {b : Stored} (h : s.commit l spec snapshot now = .ok (b, t)) :
    Committed l spec snapshot s b t := by
  unfold commit at h
  split at h
  · cases h
  next hk =>
  have hk : spec.key = l.key := by simpa using hk
  split at h
  · cases h
  · cases h
  · next hi hg =>
    cases h
    refine ⟨rfl, hk, rfl, rfl, ?_, rfl, fun _ => ⟨hg, rfl⟩, ?_⟩
    · intro j
      rw [get?_append _ _ _ _ rfl]
      by_cases hj : j = l.key
      · subst hj
        have hnone : (s.revisions.find? fun r => r.key = l.key) = none := hg
        rw [hnone]
        simp [Stored.key, hk]
      · have hkj : ¬ spec.key = j := fun e => hj (e.symm.trans hk)
        simp [Stored.key, hkj, hj, get?]
    · intro hr
      rw [hi] at hr
      cases hr
  · next old hi hg =>
    cases h
    refine ⟨rfl, hk, rfl, rfl, ?_, rfl, ?_, fun _ => ⟨by simp [hg], rfl⟩⟩
    · intro j
      have hb : Stored.key
          ⟨spec, snapshot.files, snapshot.kptfile, old.createdAt, now, old.seq⟩ = l.key := hk
      refine (find?_replace s.revisions hb j).trans ?_
      by_cases hj : j = l.key
      · subst hj
        have hsome : (s.revisions.find? fun r => r.key = l.key) = some old := hg
        simp [hsome]
      · simp [hj, get?]
    · intro hc
      rw [hi] at hc
      cases hc

namespace Committed

variable {l : Lease} {spec : Revision} {snapshot : Snapshot} {s t : Store} {b : Stored}

/-- What is committed is the snapshot, as the revision that was asked for. -/
theorem substance_eq (h : Committed l spec snapshot s b t) :
    b.substance = ⟨spec, snapshot.files, snapshot.kptfile⟩ := by
  rw [Stored.substance, h.spec_eq, h.files_eq, h.kptfile_eq]

/-- A new revision comes behind the others, and one that is replaced keeps its place. -/
theorem places (h : Committed l spec snapshot s b t) : t.revisions.map Stored.key =
    if l.intent = .create then s.revisions.map Stored.key ++ [l.key]
    else s.revisions.map Stored.key := by
  cases hi : l.intent with
  | create =>
    rw [(h.created hi).2, List.map_append, if_pos rfl, List.map_singleton, h.key_eq]
  | replace =>
    rw [(h.replaced hi).2, List.map_map, if_neg nofun]
    apply List.map_congr_left
    intro o _
    by_cases ho : o.key = l.key
    · simp [ho, h.key_eq]
    · simp [ho]

/-- The other revisions stay as they are, in their order. -/
theorem others (h : Committed l spec snapshot s b t) :
    t.revisions.filter (fun o => o.key ≠ l.key) = s.revisions.filter fun o => o.key ≠ l.key := by
  cases hi : l.intent with
  | create =>
    rw [(h.created hi).2, List.filter_append]
    simp [h.key_eq]
  | replace =>
    rw [(h.replaced hi).2]
    induction s.revisions with
    | nil => rfl
    | cons o rs ih =>
      by_cases ho : o.key = l.key
      · simp only [List.map_cons, ho, if_true]
        rw [List.filter_cons_of_neg (by simp [h.key_eq]), List.filter_cons_of_neg (by simp [ho]), ih]
      · simp only [List.map_cons, ho, if_false]
        rw [List.filter_cons_of_pos (by simpa using ho), List.filter_cons_of_pos (by simpa using ho),
          ih]

theorem nodup (h : Committed l spec snapshot s b t) (hs : (s.revisions.map Stored.key).Nodup) :
    (t.revisions.map Stored.key).Nodup := by
  rw [h.places]
  split
  · next hi =>
    refine List.nodup_append.2 ⟨hs, by simp, ?_⟩
    intro k hk j hj
    rintro rfl
    obtain ⟨o, ho, rfl⟩ := List.mem_map.1 hk
    have hkey : o.key = l.key := by simpa using hj
    have there := get?_isSome_of_mem ho
    rw [hkey, (h.created hi).1] at there
    cases there
  · exact hs

/-- A commit under a lease that was free, seen from before the lease was taken to after it was given
back. -/
theorem release {k : Key} (h : Committed l spec snapshot (s.acquire k) b t)
    (free : s.isBusy k = false) : Committed l spec snapshot s b (t.release k) where
  spec_eq := h.spec_eq
  key_eq := h.key_eq
  files_eq := h.files_eq
  kptfile_eq := h.kptfile_eq
  get?_eq := h.get?_eq
  inFlight_eq := by
    have kept := congrArg Store.inFlight (release_acquire free)
    rw [Store.release, h.inFlight_eq]
    exact kept
  created := h.created
  replaced := h.replaced

end Committed

/-- Of distinct keys, one that is stored is found once. -/
theorem filter_key {s : Store} (hs : (s.revisions.map Stored.key).Nodup) {k : Key} {b : Stored}
    (h : s.get? k = some b) : s.revisions.filter (fun o => o.key = k) = [b] := by
  have hk := key_of_get? h
  rw [← hk]
  exact filter_eq_singleton hs (mem_of_get? h)

/-- A commit under its own key fails only if the key is there for a creation, or is not there to be
replaced. -/
theorem commit_error {s : Store} {l : Lease} {spec : Revision} {snapshot : Snapshot} {now : Time}
    {err : Error} (hk : spec.key = l.key) (h : s.commit l spec snapshot now = .error err) :
    (l.intent = .create ∧ err = .alreadyExists (.revision l.key)) ∨
      (l.intent = .replace ∧ s.get? l.key = none ∧ err = .notFound (.revision l.key)) := by
  unfold commit at h
  rw [if_neg (by simp [hk])] at h
  split at h
  · next hi _ =>
    cases h
    exact .inl ⟨hi, rfl⟩
  · next hi hg =>
    cases h
    exact .inr ⟨hi, hg, rfl⟩
  · cases h
  · cases h

/-- A commit under its own key fails just as its permission does. -/
theorem commit_permitted {l : Lease} {spec : Revision} (hk : spec.key = l.key) (s : Store)
    (snapshot : Snapshot) (now : Time) :
    (∃ err, s.permit l = .error err ∧ s.commit l spec snapshot now = .error err) ∨
      s.permit l = .ok () ∧ ∃ b t, s.commit l spec snapshot now = .ok (b, t) := by
  unfold commit permit
  rw [if_neg (by simp [hk])]
  cases l.intent with
  | create =>
    cases s.get? l.key with
    | none => exact .inr ⟨rfl, _, _, rfl⟩
    | some old => exact .inl ⟨_, rfl, rfl⟩
  | replace =>
    cases s.get? l.key with
    | none => exact .inl ⟨_, rfl, rfl⟩
    | some old => exact .inr ⟨rfl, _, _, rfl⟩

/-- Whether a lease is permitted depends on whether its key is there. -/
theorem permit_congr {s t : Store} {l : Lease}
    (there : (s.get? l.key).isSome = (t.get? l.key).isSome) : s.permit l = t.permit l := by
  unfold permit
  cases hs : s.get? l.key with
  | none =>
    rw [hs] at there
    rw [Option.isNone_iff_eq_none.1 (Option.isSome_eq_false_iff.1 there.symm)]
  | some a =>
    rw [hs] at there
    obtain ⟨b, hb⟩ := Option.isSome_iff_exists.1 there.symm
    rw [hb]
    cases l.intent with
    | create => rfl
    | replace => rfl

/-- Two stores that both hold the key of a lease, or both do not, commit under it or fail alike. -/
theorem commit_alike {s t : Store} {l : Lease} {spec : Revision} (hk : spec.key = l.key)
    (there : (s.get? l.key).isSome = (t.get? l.key).isSome) (snapshot : Snapshot) (now now' : Time) :
    (∃ err, s.commit l spec snapshot now = .error err ∧ t.commit l spec snapshot now' = .error err) ∨
      ∃ b s' b' t', s.commit l spec snapshot now = .ok (b, s') ∧
        t.commit l spec snapshot now' = .ok (b', t') := by
  have permitted := permit_congr there
  obtain ⟨err, refused, hs⟩ | ⟨granted, b, s', hs⟩ := commit_permitted hk s snapshot now
  · obtain ⟨err', refused', ht⟩ | ⟨granted', -⟩ := commit_permitted hk t snapshot now'
    · rw [permitted, refused'] at refused
      cases refused
      exact .inl ⟨err, hs, ht⟩
    · rw [permitted, granted'] at refused
      cases refused
  · obtain ⟨err', refused', -⟩ | ⟨-, b', t', ht⟩ := commit_permitted hk t snapshot now'
    · rw [permitted, refused'] at granted
      cases granted
    · exact .inr ⟨b, s', b', t', hs, ht⟩

end Store

end PackageDepot
