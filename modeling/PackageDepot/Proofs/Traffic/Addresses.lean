import PackageDepot.Proofs.Service.Resolutions
import PackageDepot.Proofs.Traffic.DeadContexts
import PackageDepot.Proofs.Traffic.Listings

/-!
# Listed names as addresses

The name of a revision is its address: a clone asks for another revision by its name. `Key.Addressable` says
which keys of a listing are read back from their names. Those of created revisions all are, since their parts
were checked; those of discovered packages are cut out of paths and refs that nobody checks
(`addresses_lost`). `run_addresses` says what holds of every listing: a name that is read back is read back as
its own key and is shared with no other entry, and a name that is not is read back as nothing.
-/

namespace PackageDepot

open Package Backend Call

namespace Package.Key

/-- The package and the revision can be told apart in a name: neither of them holds a colon, and the revision
is not empty. -/
def Addressable (k : Key) : Prop :=
  ':' ∉ k.package.toList ∧ ':' ∉ k.revision.toList ∧ k.revision ≠ ""

instance (k : Key) : Decidable k.Addressable :=
  inferInstanceAs (Decidable (_ ∧ _ ∧ _))

/-- **What a name is read back as**, if its repository and its package are fit for a listing. -/
theorem parse?_text_eq {k : Key} (named : k.repository ≠ "") (repository : ':' ∉ k.repository.toList)
    (package : k.package ≠ "") : Key.parse? k.text = if k.Addressable then some k else none := by
  rw [parse?_text_eq_ite]
  refine if_congr (nameable_iff.trans ?_) rfl rfl
  constructor
  · rintro ⟨-, ⟨-, whole⟩, full, free⟩
    exact ⟨whole, free, full⟩
  · rintro ⟨whole, free, full⟩
    exact ⟨⟨named, repository⟩, ⟨package, whole⟩, full, free⟩

end Package.Key

/-- A part of a name that passed its check. -/
theorem Package.part_of_checkName {field value : String} (h : checkName field value = .ok ()) :
    value ≠ "" ∧ ':' ∉ value.toList := by
  unfold checkName at h
  dsimp only at h
  split at h
  · cases h
  next full =>
  split at h
  · cases h
  next free =>
  refine ⟨?_, by simpa using free⟩
  rintro rfl
  exact full rfl

/-- What was built can be addressed. -/
theorem Stored.Built.addressable {e : Engine} {J : Depot → Prop} {b : Stored} (h : b.Built e J) :
    b.key.package ≠ "" ∧ b.key.Addressable := by
  obtain ⟨c, d, t, built⟩ := h
  obtain ⟨⟨package, revision, -⟩, -⟩ :=
    Revision.validate_eq_ok_iff.1 (Pipeline.ends_execute_ok built).1
  obtain ⟨named, whole⟩ := part_of_checkName package
  obtain ⟨numbered, plain⟩ := part_of_checkName revision
  exact ⟨named, whole, plain, numbered⟩

/-- A clone that asks for a revision by its name is valid if the name can be read. -/
theorem Package.CloneSource.validate_ofRevision_iff {name : String} :
    (CloneSource.ofRevision name).validate = .ok () ↔ (Key.parse? name).isSome = true := by
  unfold CloneSource.validate CloneSource.ofRevision
  dsimp only
  cases Key.parse? name with
  | some k => exact ⟨fun _ => rfl, fun _ => rfl⟩
  | none => exact ⟨nofun, nofun⟩

/-- What the names of a listing are good for. -/
structure Addresses (e : Engine) (entries : List Summary) : Prop where
  /-- A name is read back as the key of its entry, if that can be addressed, and else as nothing. -/
  parsed : ∀ s ∈ entries, Key.parse? s.key.text = if s.key.Addressable then some s.key else none
  /-- Created revisions can be addressed. -/
  created : ∀ s ∈ entries, s.provenance = .created → s.key.Addressable
  /-- What can be addressed shares its name with no other entry. -/
  distinct : ∀ s ∈ entries, s.key.Addressable → ∀ t ∈ entries, t.key.text = s.key.text → t = s
  /-- A clone may ask by name for what can be addressed, and for nothing else. -/
  asked : ∀ s ∈ entries,
    (CloneSource.ofRevision s.key.text).validate = .ok () ↔ s.key.Addressable
  /-- And then it asks for the revision of the entry. -/
  resolved : ∀ s ∈ entries, s.key.Addressable → ∀ c,
    Resolve.source e (.ofRevision s.key.text) c = Resolve.revision e s.key c

/-- It all comes from what the names are read back as. -/
theorem Addresses.of_parsed {e : Engine} {entries : List Summary}
    (unique : (entries.map Summary.key).Nodup)
    (parsed : ∀ s ∈ entries, Key.parse? s.key.text = if s.key.Addressable then some s.key else none)
    (created : ∀ s ∈ entries, s.provenance = .created → s.key.Addressable) :
    Addresses e entries where
  parsed := parsed
  created := created
  distinct s hs whole t ht same := by
    have key : t.key = s.key := by
      have read := parsed s hs
      rw [if_pos whole, ← same, parsed t ht] at read
      split at read
      · exact Option.some.inj read
      · cases read
    have only := filter_eq_singleton unique hs
    exact List.mem_singleton.1 (only ▸ List.mem_filter.2 ⟨ht, decide_eq_true key⟩)
  asked s hs := by
    rw [CloneSource.validate_ofRevision_iff, parsed s hs]
    by_cases whole : s.key.Addressable
    · simp [whole]
    · simp [whole]
  resolved s hs whole c := by
    have read := parsed s hs
    rw [if_pos whole] at read
    unfold Resolve.source CloneSource.ofRevision
    dsimp only
    rw [read]

namespace Traffic

variable {e : Engine} {m : Moment} {git : GitHost} {images : ImageHost} {secrets : Dict Credential}
  {es : Nat → Event} {n i : Nat}

/-- The entries of a listing have repositories that names can begin with. -/
theorem repository_of_listed {f : Filter} {entries : List Summary}
    (h : Listed e es (run e (opening m git images secrets) es) i f entries) {s : Summary}
    (hs : s ∈ entries) : s.key.repository ≠ "" ∧ ':' ∉ s.key.repository.toList := by
  obtain ⟨a, r, -, found, -⟩ := h.admitted s hs
  rw [← (run_tidy e m git images secrets es a).named _ r found]
  exact Repository.name_of_validate (run_valid e m git images secrets es a _ r found)

/-- And they have packages: those that were created have checked names, and a scan finds no others. -/
theorem package_of_listed {f : Filter} {entries : List Summary}
    (h : Listed e es (run e (opening m git images secrets) es) i f entries) {s : Summary}
    (hs : s ∈ entries) :
    s.key.package ≠ "" ∧ (s.provenance = .created → s.key.Addressable) := by
  cases origin : s.provenance with
  | created =>
    obtain ⟨b, o, -, committed, rfl⟩ := h.created s hs origin
    obtain ⟨named, whole⟩ := committed.built.addressable
    exact ⟨named, fun _ => whole⟩
  | discovered =>
    obtain ⟨a, b, r, -, -, -, source, g, p, commit, -, -, offers, rfl⟩ := h.discovered s hs origin
    refine ⟨fun empty => ?_, nofun⟩
    exact Backend.name_ne_nil offers.named (congrArg String.toList empty)

/-- **Addresses**: in every listing of every run, created revisions have names that are read back as their
keys, and so have the discovered ones whose package and ref have no colon and whose ref is not empty. -/
theorem run_addresses (e : Engine) (m : Moment) (git : GitHost) (images : ImageHost)
    (secrets : Dict Credential) (es : Nat → Event) (n i : Nat) (f : Filter) (c : Context)
    (entries : List Summary)
    (h : (run e (opening m git images secrets) es n).At i (.list f c)
      (.done (.ok (.listing entries)))) : Addresses e entries := by
  have listed := listed_of_gathered (gathered_of_answered h)
  refine .of_parsed listed.nodup (fun s hs => ?_) fun s hs => (package_of_listed listed hs).2
  obtain ⟨named, repository⟩ := repository_of_listed listed hs
  exact Key.parse?_text_eq named repository (package_of_listed listed hs).1

/-- What the survey lists. -/
def Survey.entries : List Summary :=
  [⟨Shelf.revision.key, .created, none⟩, Shelf.found.summary "apps"]

/-- The names of a listing of which one entry was created and the other one discovered. -/
theorem run_addresses_survey :
    (Survey.course 20).At 2 (.list {} ⟨[2], none⟩) (.done (.ok (.listing Survey.entries))) ∧
    Addresses {} Survey.entries :=
  ⟨rfl, run_addresses {} {} Shelf.empty ∅ ∅ Survey.events 20 2 {} ⟨[2], none⟩ Survey.entries rfl⟩

/-! ## Names that are no addresses -/

namespace Colons

/-- A package in a directory with a colon, and one at a ref with a colon. -/
def host : GitHost :=
  (GitHost.setRef ∅ "host/apps" "v1" ⟨"c1", .ofList [("a:b/Kptfile", "")]⟩).setRef
    "host/apps" "b:v1" ⟨"c2", .ofList [("a/Kptfile", "")]⟩

/-- The repository is listed. -/
def script : List Event :=
  [.start (.register Shelf.repository), .move 0, .start (.list {} ⟨[1], none⟩)] ++
    List.replicate 4 (.move 1)

def events (n : Nat) : Event := script[n]?.getD (.pass 0 [])

def course : Nat → Traffic := run {} (opening {} host ∅ ∅) events

def directory : Discovered := ⟨"a:b", ⟨"host/apps", "v1", "a:b"⟩, "c1"⟩

def ref : Discovered := ⟨"a", ⟨"host/apps", "b:v1", "a"⟩, "c2"⟩

end Colons

/-- Two packages are listed under one name, which is read back as neither of them, and no clone may ask for
it. -/
theorem addresses_lost :
    (Colons.course 7).Idle ∧
    (Colons.course 7).At 1 (.list {} ⟨[1], none⟩) (.done (.ok (.listing
      [Colons.ref.summary "apps", Colons.directory.summary "apps"]))) ∧
    Colons.ref.key "apps" ≠ Colons.directory.key "apps" ∧
    (Colons.ref.key "apps").text = (Colons.directory.key "apps").text ∧
    Key.parse? (Colons.directory.key "apps").text = none ∧
    (CloneSource.ofRevision (Colons.directory.key "apps").text).validate =
      .error (.badRevisionName "apps:a:b:v1") := by
  refine ⟨Shelf.idle_of_ended (by decide +kernel), ?_, ?_, ?_, ?_, ?_⟩
  · rfl
  · decide
  · decide
  · decide
  · rfl

end Traffic

end PackageDepot
