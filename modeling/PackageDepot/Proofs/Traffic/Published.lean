import Mathlib.Data.List.Forall2
import PackageDepot.Proofs.Service.Isolation
import PackageDepot.Proofs.Traffic.Deletions
import PackageDepot.Proofs.Traffic.Listings

/-!
# What is published is read-only

Each of the three calls that could change what is published under a key is stopped in its own way. A creation
finds the package when it scans the repository under its lease. An update has found before that nothing was
created under the key, and looks no further. A deletion comes to the scan only when it has found nothing to
take out. So they answer differently (`Attempt.refusal`), and two of them answer otherwise in a context that is
interrupted, be it cancelled or only past its deadline (`late_attempts_differ`). But in whatever context they
are made, and however many of them, they fail and nothing changes (`published_read_only`).
-/

namespace PackageDepot

open Package Backend Call

variable {M : Moment → Prop} {e : Engine} {d : Depot} {k : Key}

/-! ## Looking for what is published -/

namespace Index

/-- What is published is found, unless the context is interrupted. -/
theorem isDiscovered_published (published : d.PublishedAs e k) (c : Context) :
    AnswersUnless M (¬ c.Undisturbed M) (isDiscovered e k c) d (.ok true) := by
  obtain ⟨x, found⟩ := Depot.published_ok_iff.2 published
  apply Promptly.attempt_bind (findDiscovered_answersUnless e d c k)
  rintro a t ⟨rfl, rfl | ⟨stopped, i, rfl⟩⟩
  · rw [found]
    exact ⟨rfl, .inl rfl⟩
  · exact ⟨rfl, .inr ⟨stopped, i, rfl⟩⟩

end Index

/-! ## Attempts -/

/-- The repository of what is published holds packages. -/
theorem Depot.PublishedAs.holds (published : d.PublishedAs e k)
    (valid : ∀ n g, d.registry.get? n = some g → g.validate = .ok ()) :
    ∃ r, d.registry.find k.repository = .ok r ∧ r.holdsPackages = true := by
  obtain ⟨r, ps, p, found, scanned, hp, -, -⟩ := published
  refine ⟨r, Registry.find_ok_iff.2 found, ?_⟩
  obtain ⟨-, rfl⟩ | ⟨source, _, place, -, -⟩ := Depot.scan_ok scanned
  · cases hp
  · cases holds : r.holdsPackages with
    | true => rfl
    | false =>
      rw [Repository.packageSource?_of_not_holds (valid _ r found) holds] at place
      cases place

namespace Service

variable (valid : ∀ n g, d.registry.get? n = some g → g.validate = .ok ())

include valid

/-- A write fails as its preparation does. -/
theorem write_unprepared {P : Prop} {r : Revision} {intent : Intent} {c : Context} {err : Error}
    (free : d.store.isBusy r.key = false) (published : d.PublishedAs e r.key)
    (prepared : AnswersUnless M P (prepare e r intent c) { d with store := d.store.acquire r.key }
      (.error err)) : AnswersUnless M P (write e r intent c) d (.error err) := by
  obtain ⟨g, found, holds⟩ := published.holds valid
  have asked : Answers M (repository r.repository) d (.ok g) := by
    rw [← found]
    exact answers_query _
  rw [write_eq]
  refine asked.unless.bind_ok ?_
  simp only [holds, Bool.not_true, Bool.false_eq_true, if_false]
  exact prepared.error_bind.error_bind.withLease free

variable (free : d.store.isBusy k = false) (absent : d.store.get? k = none)
  (published : d.PublishedAs e k)

include free absent published

/-- **A creation of what is published is refused**, whatever its tasks are. -/
theorem create_published {r : Revision} (named : r.key = k) (c : Context) :
    AnswersUnless M (¬ c.Undisturbed M) (create e r c) d (.error (.alreadyExists (.revision k))) := by
  subst named
  refine write_unprepared valid free published ?_
  have permitted : (d.store.acquire r.key).permit ⟨r.key, .create⟩ = .ok () := by
    have kept : (d.store.acquire r.key).get? r.key = none := absent
    simp only [Store.permit, kept]
  have checked : Answers M (permit ⟨r.key, .create⟩) { d with store := d.store.acquire r.key } (.ok ()) := by
    rw [← permitted]
    exact answers_query _
  refine checked.unless.bind_ok ?_
  rw [if_pos rfl]
  have there : Depot.PublishedAs { d with store := d.store.acquire r.key } e r.key := published
  refine (Index.isDiscovered_published there c).bind_ok ?_
  exact (answers_throw _).unless.error_bind

/-- **An update of what is published finds nothing to replace**, whatever its tasks and its context are. -/
theorem update_published {r : Revision} (named : r.key = k) (c : Context) :
    Answers M (update e r c) d (.error (.notFound (.revision k))) := by
  subst named
  refine AnswersUnless.answers (P := False) (write_unprepared valid free published ?_) id
  have refused : (d.store.acquire r.key).permit ⟨r.key, .replace⟩ =
      .error (.notFound (.revision r.key)) := by
    have kept : (d.store.acquire r.key).get? r.key = none := absent
    simp only [Store.permit, kept]
  have checked : Answers M (permit ⟨r.key, .replace⟩) { d with store := d.store.acquire r.key }
      (.error (.notFound (.revision r.key))) := by
    rw [← refused]
    exact answers_query _
  exact checked.unless.error_bind

omit valid in
/-- **A deletion of what is published is refused.** It says why, unless its context is interrupted. -/
theorem delete_published (c : Context) :
    Promptly M (fun a t => t = d ∧ (a = .error (.validation (.readOnly k)) ∨
      ¬ c.Undisturbed M ∧ a = .error (.notFound (.revision k)))) (delete e k c) d := by
  apply Routine.Promptly.mono (delete_absent free absent (Index.isDiscovered_published published c))
  rintro a t ⟨rfl, found, looked, ⟨-, rfl⟩ | ⟨hidden, rfl⟩⟩
  · exact ⟨rfl, .inl rfl⟩
  · exact ⟨rfl, .inr ⟨(looked.resolve_left hidden).1, rfl⟩⟩

end Service

/-- An attempt to change the revision under a key. -/
inductive Attempt (k : Key)
  | create (r : Revision) (named : r.key = k) (c : Context)
  | update (r : Revision) (named : r.key = k) (c : Context)
  | delete (c : Context)

namespace Attempt

def request : Attempt k → Request
  | .create r _ c => .create r c
  | .update r _ c => .update r c
  | .delete c => .delete k c

def context : Attempt k → Context
  | .create _ _ c | .update _ _ c | .delete c => c

/-- What is answered if a package is published under the key. -/
def refusal : Attempt k → Error
  | .create .. => .alreadyExists (.revision k)
  | .update .. => .notFound (.revision k)
  | .delete _ => .validation (.readOnly k)

/-- The attempt has failed, and with its refusal if its context was not interrupted. -/
def Rejected (M : Moment → Prop) (a : Attempt k) (b : Answer) : Prop :=
  ∃ err, b = .error err ∧ (a.context.Undisturbed M → err = a.refusal)

/-- Attempts are made one after the other, each at moments of its own. They come to their ends without
waiting, with answers and in a depot of which `Q` holds. -/
def Succession (e : Engine) :
    List ((Moment → Prop) × Attempt k) → (List Answer → Depot → Prop) → Depot → Prop
  | [], Q, d => Q [] d
  | (M, a) :: rest, Q, d =>
    Routine.Promptly M (fun b t => Succession e rest (fun bs => Q (b :: bs)) t) (a.request.begin e) d

variable {l : List ((Moment → Prop) × Attempt k)}

/-- If each single attempt is rejected and leaves the depot as it is, then so do all of them. -/
theorem succession (once : ∀ M (a : Attempt k),
      Routine.Promptly M (fun b t => t = d ∧ a.Rejected M b) (a.request.begin e) d)
    {Q : List Answer → Depot → Prop} (hQ : ∀ bs, List.Forall₂ (fun x b => x.2.Rejected x.1 b) l bs → Q bs d) :
    Succession e l Q d := by
  induction l generalizing Q with
  | nil => exact hQ [] .nil
  | cons x rest ih =>
    apply Routine.Promptly.mono (once x.1 x.2)
    rintro b t ⟨rfl, rejected⟩
    exact ih fun bs others => hQ (b :: bs) (.cons rejected others)

end Attempt

/-- What is published under a key is read-only. -/
structure ReadOnly (e : Engine) (d : Depot) (k : Key) : Prop where
  /-- A creation fails in a context that is not interrupted: the key is taken. -/
  create : ∀ r, r.key = k → ∀ M c, c.Undisturbed M →
    Answers M (Service.create e r c) d (.error (.alreadyExists (.revision k)))
  /-- An update fails in any context: nothing was created under the key. -/
  update : ∀ r, r.key = k → ∀ M c,
    Answers M (Service.update e r c) d (.error (.notFound (.revision k)))
  /-- A deletion fails as well: the key is read-only. -/
  delete : ∀ M c, c.Undisturbed M →
    Answers M (Service.delete e k c) d (.error (.validation (.readOnly k)))
  /-- Attempts in any number and any contexts are all rejected, and the depot is as it was before them. -/
  attempts : ∀ l : List ((Moment → Prop) × Attempt k), Attempt.Succession e l
    (fun bs t => t = d ∧ List.Forall₂ (fun x b => x.2.Rejected x.1 b) l bs) d
  /-- The key is listed once, as discovered, whichever filter admits its repository. -/
  listed : ∃ lock, ∀ f r, d.Admits f k.repository r → ∃ entries,
    entries.filter (fun s => s.key = k) = [⟨k, .discovered, some lock⟩] ∧
    ∀ M c, c.Undisturbed M → Answers M (Service.list e f c) d (.ok entries)
  /-- What is shown of it is what is published. -/
  shown : ∀ M c, c.Undisturbed M → Answers M (Service.get e k c) d (d.publishedContent e k >>= fun content =>
    .ok ⟨.ofKey k content.files, (Kptfile.ofBundle e.config.manifestFile content.files).toOption⟩)

/-! ## The listing -/

/-- What is published and not created is listed once. -/
theorem Depot.PublishedAs.listed (published : d.PublishedAs e k) (absent : d.store.get? k = none)
    (tidy : d.Tidy) : ∃ lock, ∀ f r, d.Admits f k.repository r → ∃ entries,
      entries.filter (fun s => s.key = k) = [⟨k, .discovered, some lock⟩] ∧
      ∀ M c, c.Undisturbed M → Answers M (Service.list e f c) d (.ok entries) := by
  obtain ⟨r, ps, p, found, scanned, hp, package, ref⟩ := published
  have name : r.name = k.repository := tidy.named _ _ found
  have key : p.key r.name = k := by rw [Discovered.key, name, package, ref]
  refine ⟨p.lock, fun f r' admits => ?_⟩
  obtain ⟨found', admitted⟩ := admits
  cases found.symm.trans found'
  refine ⟨_, ?_, fun M c quiet => Index.list_sections e d quiet f⟩
  have parts : ((d.registry.values.filter f.admits).map (d.scanned tidy e)).Pairwise
      fun p q => p.name < q.name :=
    List.pairwise_map.2 (tidy.values_increasing.filter _)
  have sections : (d.registry.values.filter f.admits).flatMap (d.sectionOf e) =
      (((d.registry.values.filter f.admits).map (d.scanned tidy e)).map Part.entries).flatten := by
    rw [List.flatMap_def, List.map_map]
    rfl
  have shown : p.summary r.name ∈ (d.registry.values.filter f.admits).flatMap (d.sectionOf e) := by
    rw [sections, PackageDepot.mem_entries_iff]
    refine ⟨d.scanned tidy e r, List.mem_map.2 ⟨r, ?_, rfl⟩, Part.mem_entries_iff.2 (.inr ⟨p, ?_, rfl, ?_⟩)⟩
    · refine List.mem_filter.2 ⟨tidy.mem_values_iff.2 ?_, admitted⟩
      rwa [name]
    · show p ∈ (d.scan e r).toOption.getD []
      rw [scanned]
      exact hp
    · intro b hb same
      have stored := (tidy.mem_list_iff.1 hb).1
      rw [same] at stored
      have missing : d.store.get? (p.key r.name) = none := by rw [key]; exact absent
      cases missing.symm.trans stored
  have once := filter_eq_singleton (f := Summary.key) (sections ▸ PackageDepot.entries_nodup parts) shown
  have same : (p.summary r.name).key = k := key
  rw [same] at once
  rw [once, Discovered.summary, key]

/-! ## All of it -/

section

variable (valid : ∀ n g, d.registry.get? n = some g → g.validate = .ok ())
  (free : d.store.isBusy k = false) (absent : d.store.get? k = none) (published : d.PublishedAs e k)

include valid free absent published

/-- Each attempt is rejected and leaves the depot as it is. -/
theorem Attempt.rejected (M : Moment → Prop) (a : Attempt k) :
    Routine.Promptly M (fun b t => t = d ∧ a.Rejected M b) (a.request.begin e) d := by
  cases a with
  | create r named c =>
    have refused : AnswersUnless M (¬ c.Undisturbed M) ((create r named c).request.call e) d
        (.error (.alreadyExists (.revision k))) :=
      (Service.create_published valid free absent published named c).error_bind
    apply Routine.Promptly.mono refused
    rintro b t ⟨rfl, rfl | ⟨stopped, i, rfl⟩⟩
    · exact ⟨rfl, _, rfl, fun _ => rfl⟩
    · exact ⟨rfl, _, rfl, fun quiet => (stopped quiet).elim⟩
  | update r named c =>
    have refused : AnswersUnless M False ((update r named c).request.call e) d
        (.error (.notFound (.revision k))) :=
      (Service.update_published valid free absent published named c).unless.error_bind
    apply Routine.Promptly.mono (refused.answers id)
    rintro b t ⟨rfl, rfl⟩
    exact ⟨rfl, _, rfl, fun _ => rfl⟩
  | delete c =>
    refine Promptly.bind (Service.delete_published free absent published c) ?_ ?_
    · rintro u t ⟨-, h | ⟨-, h⟩⟩
      · cases h
      · cases h
    · rintro err t ⟨rfl, h | ⟨stopped, h⟩⟩
      · cases h
        exact ⟨rfl, _, rfl, fun _ => rfl⟩
      · cases h
        exact ⟨rfl, _, rfl, fun quiet => (stopped quiet).elim⟩

theorem readOnly_of_published (tidy : d.Tidy) : ReadOnly e d k where
  create _ named _ c quiet :=
    (Service.create_published valid free absent published named c).answers fun stopped => stopped quiet
  update _ named _ c := Service.update_published valid free absent published named c
  delete M c quiet := by
    apply Routine.Promptly.mono (Service.delete_published free absent published c)
    rintro a t ⟨rfl, rfl | ⟨stopped, -⟩⟩
    · exact ⟨rfl, rfl⟩
    · exact (stopped quiet).elim
  attempts l :=
    Attempt.succession (Attempt.rejected valid free absent published) fun _ rejected => ⟨rfl, rejected⟩
  listed := published.listed absent tidy
  shown M c quiet := by
    have got := Service.get_answers e d quiet k
    rwa [Depot.view, absent] at got

end

namespace Traffic

/-- **What is published is read-only** between the calls of every run, where no created revision covers it: it
can be neither created nor updated nor deleted, and attempts leave no trace. -/
theorem published_read_only (e : Engine) (m : Moment) (git : GitHost) (images : ImageHost)
    (secrets : Dict Credential) (es : Nat → Event) (n : Nat)
    (idle : (run e (opening m git images secrets) es n).Idle) {k : Key}
    (published : (run e (opening m git images secrets) es n).depot.PublishedAs e k)
    (absent : (run e (opening m git images secrets) es n).depot.store.get? k = none) :
    ReadOnly e (run e (opening m git images secrets) es n).depot k :=
  readOnly_of_published (run_valid e m git images secrets es n) (free_of_idle idle k) absent published
    (run_tidy e m git images secrets es n)

/-! ## On a shelf -/

namespace Shelf

/-- A request for the key of the package that is published. -/
def copy : Revision := { package := "db", revision := "v1", repository := "apps" }

theorem published : (course 12).depot.PublishedAs {} copy.key :=
  ⟨repository, [found], found, rfl, rfl, List.mem_cons_self, rfl, rfl⟩

/-- A context that nobody has cancelled and that is past its deadline. -/
def late : Context := ⟨[2], some 0⟩

end Shelf

/-- A package that was published after another one was created. -/
theorem published_read_only_on_shelf :
    (Shelf.course 12).Idle ∧ (Shelf.course 12).depot.PublishedAs {} Shelf.copy.key ∧
    (Shelf.course 12).depot.store.get? Shelf.copy.key = none ∧
    ReadOnly {} (Shelf.course 12).depot Shelf.copy.key := by
  have idle : (Shelf.course 12).Idle := Shelf.idle_of_ended (by decide +kernel)
  have absent : (Shelf.course 12).depot.store.get? Shelf.copy.key = none := by rfl
  refine ⟨idle, Shelf.published, absent, ?_⟩
  exact published_read_only {} {} Shelf.empty ∅ ∅ Shelf.events 12 idle Shelf.published absent

/-- A context past its deadline is interrupted, though nobody has cancelled it: a creation does not come to the
scan, nor does a deletion. -/
theorem late_attempts_differ :
    (Shelf.course 12).Idle ∧ (Shelf.course 12).depot.PublishedAs {} Shelf.copy.key ∧
    (Shelf.course 12).depot.store.get? Shelf.copy.key = none ∧
    (Shelf.course 12).moment.isCancelled Shelf.late.scope = false ∧
    Answers (fun m => m = (Shelf.course 12).moment) (Service.create {} Shelf.copy Shelf.late)
      (Shelf.course 12).depot (.error (.cancelled .expired)) ∧
    Answers (fun m => m = (Shelf.course 12).moment) (Service.delete {} Shelf.copy.key Shelf.late)
      (Shelf.course 12).depot (.error (.notFound (.revision Shelf.copy.key))) := by
  refine ⟨Shelf.idle_of_ended (by decide +kernel), Shelf.published, rfl, rfl, ?_, ?_⟩
  · rintro _ rfl _ rfl _ rfl _ rfl _ rfl _ rfl
    exact ⟨rfl, rfl⟩
  · rintro _ rfl _ rfl _ rfl _ rfl _ rfl
    exact ⟨rfl, rfl⟩

end Traffic

end PackageDepot
