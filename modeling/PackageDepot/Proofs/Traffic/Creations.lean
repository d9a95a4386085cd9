import PackageDepot.Proofs.Traffic.Orphans

/-!
# The order of creation

A revision that is stored was created at some time and has been there since (`CreatedAt`). The store keeps
its revisions in the order of these times (`run_creation_order`), since a creation puts its revision behind
the others, an update puts one in its own place, and everything else only takes revisions out.
-/

namespace PackageDepot

open Package Call Backend

/-- What a step does to the keys of the store: it takes some out, or puts a new one behind them. -/
theorem Advance.keys {e : Engine} {q : Request} {t u : Phase} {m : Moment} {d d' : Depot}
    (h : Advance e q t m d d' u) :
    (d'.store.revisions.map Stored.key).Sublist (d.store.revisions.map Stored.key) ∨
      ∃ k, d.store.get? k = none ∧
        d'.store.revisions.map Stored.key = d.store.revisions.map Stored.key ++ [k] := by
  cases h with
  | quiet | register | remove | approve | acquire | conflict | finish | fail | miss =>
    exact .inl (List.Sublist.refl _)
  | purge => exact .inl (List.filter_sublist.map Stored.key)
  | erase => exact .inl (List.filter_sublist.map Stored.key)
  | @commit _ _ intent r c snapshot b store hq h =>
    have hc := Store.commit_ok h
    have places := hc.places
    cases intent with
    | create => exact .inr ⟨r.key, (hc.created rfl).1, places⟩
    | replace => exact .inl (places ▸ List.Sublist.refl _)

namespace Traffic

/-- The revision under a key was created at the time `a`, and is stored at all times behind it up to `n`. -/
structure CreatedAt (es : Nat → Event) (x : Nat → Traffic) (k : Key) (a n : Nat) : Prop where
  before : a < n
  creates : ∃ i r c f, r.key = k ∧ es a = .move i ∧ (x a).Settles i (.create r c) (.ok (.files f))
  stays : ∀ b, a < b → b ≤ n → (x b).depot.store.get? k ≠ none

/-- Two revisions are stored at a time, and the first one was created before the second one. -/
def Older (es : Nat → Event) (x : Nat → Traffic) (n : Nat) (j k : Key) : Prop :=
  ∃ a b, a < b ∧ CreatedAt es x j a n ∧ CreatedAt es x k b n

theorem CreatedAt.succ {es : Nat → Event} {x : Nat → Traffic} {k : Key} {a n : Nat}
    (h : CreatedAt es x k a n) (there : (x (n + 1)).depot.store.get? k ≠ none) :
    CreatedAt es x k a (n + 1) where
  before := Nat.lt_succ_of_lt h.before
  creates := h.creates
  stays b hab hb := by
    by_cases hbn : b ≤ n
    · exact h.stays b hab hbn
    · obtain rfl : b = n + 1 := by omega
      exact there

theorem Older.succ {es : Nat → Event} {x : Nat → Traffic} {n : Nat} {j k : Key} (h : Older es x n j k)
    (first : (x (n + 1)).depot.store.get? j ≠ none) (second : (x (n + 1)).depot.store.get? k ≠ none) :
    Older es x (n + 1) j k := by
  obtain ⟨a, b, hab, hj, hk⟩ := h
  exact ⟨a, b, hab, hj.succ first, hk.succ second⟩

theorem Change.keys {e : Engine} {x y : Traffic} {ev : Event} (hc : Change e x ev y)
    (orderly : x.Orderly e) :
    (y.depot.store.revisions.map Stored.key).Sublist (x.depot.store.revisions.map Stored.key) ∨
      ∃ k, x.depot.store.get? k = none ∧
        y.depot.store.revisions.map Stored.key = x.depot.store.revisions.map Stored.key ++ [k] := by
  cases hc with
  | start q depot calls stay =>
    rw [depot]
    exact .inl (List.Sublist.refl _)
  | move i q p stands depot moved others =>
    rw [depot]
    obtain ⟨t, hf⟩ := orderly i q p stands
    obtain stay | ⟨-, u, hs, -⟩ := hf.move x.moment x.depot
    · rw [stay]
      exact .inl (List.Sublist.refl _)
    · exact hs.keys
  | drop i q p stands going depot dropped others =>
    obtain ⟨t, hf⟩ := orderly i q p stands
    rw [depot, hf.abandon going, (Request.release_kept e q t _).2]
    exact .inl (List.Sublist.refl _)
  | other ev registry store calls =>
    rw [store]
    exact .inl (List.Sublist.refl _)

variable {e : Engine} {m : Moment} {git : GitHost} {images : ImageHost} {secrets : Dict Credential}
  {es : Nat → Event} {n : Nat}

theorem mem_keys_iff {d : Depot} {k : Key} :
    k ∈ d.store.revisions.map Stored.key ↔ d.store.get? k ≠ none := by
  rw [← Option.isSome_iff_ne_none, List.mem_map]
  constructor
  · rintro ⟨b, hb, rfl⟩
    exact Store.get?_isSome_of_mem hb
  · intro there
    obtain ⟨b, stored⟩ := Option.isSome_iff_exists.1 there
    exact ⟨b, Store.mem_of_get? stored, Store.key_of_get? stored⟩

/-- What is stored was created at some time, and is there since. -/
theorem exists_createdAt {k : Key}
    (there : (run e (opening m git images secrets) es n).depot.store.get? k ≠ none) :
    ∃ a, CreatedAt es (run e (opening m git images secrets) es) k a n := by
  obtain ⟨a, -, han, absent, stays⟩ := exists_last (a := 0) (n := n) (Nat.zero_le n)
    (P := fun b => (run e (opening m git images secrets) es b).depot.store.get? k = none) rfl there
  obtain ⟨-, i, r, c, f, key, hev, settles, -⟩ :=
    creation_of_appears absent (stays (a + 1) (by omega) (by omega))
  exact ⟨a, han, ⟨i, r, c, f, key, hev, settles⟩, stays⟩

/-- **The store keeps the order of creation.** -/
theorem run_creation_order (e : Engine) (m : Moment) (git : GitHost) (images : ImageHost)
    (secrets : Dict Credential) (es : Nat → Event) (n : Nat) :
    ((run e (opening m git images secrets) es n).depot.store.revisions.map Stored.key).Pairwise
      (Older es (run e (opening m git images secrets) es) n) := by
  induction n with
  | zero => exact .nil
  | succ n ih =>
    obtain fewer | ⟨k, absent, keys⟩ := (run_change e _ es n).keys (run_orderly n)
    · refine (ih.sublist fewer).imp_of_mem fun hj hk older => ?_
      exact older.succ (mem_keys_iff.1 hj) (mem_keys_iff.1 hk)
    · have there : ∀ j ∈ (run e (opening m git images secrets) es n).depot.store.revisions.map Stored.key
          ++ [k], (run e (opening m git images secrets) es (n + 1)).depot.store.get? j ≠ none := by
        intro j hj
        rw [← keys] at hj
        exact mem_keys_iff.1 hj
      obtain ⟨-, i, r, c, f, key, hev, settles, -⟩ :=
        creation_of_appears absent (there k (by simp))
      have newest : CreatedAt es (run e (opening m git images secrets) es) k n (n + 1) :=
        ⟨by omega, ⟨i, r, c, f, key, hev, settles⟩, fun b hnb hb => by
          obtain rfl : b = n + 1 := by omega
          exact there k (by simp)⟩
      rw [keys]
      refine List.pairwise_append.2 ⟨?_, List.pairwise_singleton _ _, ?_⟩
      · refine ih.imp_of_mem fun hj hk older => ?_
        exact older.succ (there _ (List.mem_append_left _ hj)) (there _ (List.mem_append_left _ hk))
      · intro j hj _ hk
        obtain rfl := List.mem_singleton.1 hk
        obtain ⟨a, earlier⟩ := exists_createdAt (mem_keys_iff.1 hj)
        exact ⟨a, n, earlier.before, earlier.succ (there j (List.mem_append_left _ hj)), newest⟩

end Traffic

end PackageDepot
