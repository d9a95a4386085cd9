import PackageDepot.Proofs.Function.Evaluation
import PackageDepot.Proofs.Package.Kptfile
import PackageDepot.Proofs.Pipeline.Origins

/-!
# What a clone keeps of the package it was made from

A clone keeps every file but the manifest. The manifest is read, given its new name and lineage, and written
anew, so what is in it is kept as far as a `Kptfile` has a place for it: `Kptfile.Carries` says which fields
these are, level by level. What is not known is kept beside the known fields of a manifest, but within its
metadata and within what is said about the package it is lost (`clone_loses_labels`).
-/

namespace PackageDepot

open Package Yaml Wire Call
open Backend (GitHost mapError_eq_ok_iff bind_eq_ok_iff)

namespace Package

/-- What is written of a manifest, seen from a node that it was read from. -/
structure Kptfile.Carries (k : Kptfile) (n : Node) : Prop where
  heading : ∀ name ∈ ["apiVersion", "kind"],
    k.toYaml.get? name = ((n.at? [name]).bind Node.word?).map .str
  annotated : ∀ name, k.toYaml.at? ["metadata", "annotations", name] =
    ((n.at? ["metadata", "annotations", name]).bind Node.word?).map .str
  /-- Empty texts and lists are left out. -/
  said : ∀ name ∈ ["site", "description"], k.toYaml.at? ["info", name] =
    (((n.at? ["info", name]).bind Node.word?).filter (· ≠ "")).map .str
  keywords : k.toYaml.at? ["info", "keywords"] =
    (((n.at? ["info", "keywords"]).bind Node.words?).filter (· ≠ [])).map fun ws =>
      .seq (ws.map .str)
  /-- Fields that are not known are kept with all that is in them. -/
  other : ∀ name, name ∉ Kptfile.known.names →
    k.toYaml.get? name = (n.at? [name]).bind Node.value?
  /-- Within the known ones there is nothing else. -/
  metadata : ∀ name, name ∉ ["name", "annotations"] → k.toYaml.at? ["metadata", name] = none
  info : ∀ name, name ∉ ["site", "description", "keywords"] → k.toYaml.at? ["info", name] = none

/-- A value that is left out if it is the default. -/
theorem filter_ne_eq_ite {α : Type} [DecidableEq α] (a? : Option α) (value : α) :
    a?.filter (· ≠ value) = if a?.getD value ≠ value then some (a?.getD value) else none := by
  cases a? with
  | none => simp
  | some a => simp [Option.filter]

/-- What counts is what the manifest was read from, whatever name and lineage it has now. -/
theorem Kptfile.ReadFrom.carries {k k' : Kptfile} {n : Node} (h : k.ReadFrom n)
    (apiVersion : k'.apiVersion = k.apiVersion) (kind : k'.kind = k.kind)
    (annotations : k'.metadata.annotations = k.metadata.annotations) (info : k'.info = k.info)
    (extra : k'.extra = k.extra) : k'.Carries n := by
  have said : k'.info = none → k'.extra.get? "info" = none := by
    rw [extra, h.extra]
    exact fun _ => if_pos (by decide)
  have at_info (name : String) :
      k'.toYaml.at? ["info", name] = (Info.codec.encode (k.info.getD {})).toYaml.get? name := by
    rw [k'.at?_toYaml_info said, info]
  exact {
    heading := by
      simp only [List.forall_mem_cons, List.not_mem_nil, false_implies, implies_true, and_true]
      exact ⟨by rw [k'.get?_toYaml_apiVersion, h.apiVersion, apiVersion]; rfl,
        by rw [k'.get?_toYaml_kind, h.kind, kind]; rfl⟩
    annotated := fun name => by rw [k'.at?_toYaml_annotations, annotations, h.annotations]
    said := by
      simp only [List.forall_mem_cons, List.not_mem_nil, false_implies, implies_true, and_true]
      rw [at_info, at_info, Info.get?_encode, Info.get?_encode, filter_ne_eq_ite, filter_ne_eq_ite,
        ← h.info.site, ← h.info.description]
      simp [apply_ite]
    keywords := by
      rw [at_info, Info.get?_encode, filter_ne_eq_ite, ← h.info.keywords]
      simp [apply_ite]
    other := fun name unknown => by
      rw [k'.get?_toYaml_other unknown, extra, h.extra, if_neg unknown, Node.at?_singleton]
    metadata := fun name others => by
      simp only [List.mem_cons, List.not_mem_nil, or_false, not_or] at others
      rw [k'.at?_toYaml_metadata, Metadata.get?_encode]
      simp [others]
    info := fun name others => by
      simp only [List.mem_cons, List.not_mem_nil, or_false, not_or] at others
      rw [at_info, Info.get?_encode]
      simp [others] }

/-- What a clone makes of the files of another package. -/
structure Snapshot.Clones (path name : String) (resolved : Resolved) (s : Snapshot) : Prop where
  /-- No file but the manifest is changed, added or taken away. -/
  file : ∀ p, p ≠ path → s.files.get? p = resolved.files.get? p
  manifest : s.files.get? path = some s.kptfile.render
  named : s.kptfile.name = name
  lineage : s.kptfile.lineage = some resolved.lock.lineage
  lock : s.kptfile.lock = some resolved.lock
  /-- A package without a manifest gets a new one. -/
  anew : resolved.files.get? path = none → s.kptfile = { Kptfile.named name with
    lineage := some resolved.lock.lineage, lock := some resolved.lock }
  /-- The manifest of the other package is the one document of its text. -/
  carries : ∀ text, resolved.files.get? path = some text →
    ∃ d, Document.all text = [d] ∧ s.kptfile.Carries (Node.ofDocument d)

/-- A manifest is read from the root of the one document of its text. -/
theorem Kptfile.decode_of_parse {text : String} {k : Kptfile} (h : Kptfile.parse text = .ok k) :
    ∃ d, Document.all text = [d] ∧ Kptfile.decode (Node.ofDocument d) = .ok k := by
  unfold Kptfile.parse Codec.readYamlWith at h
  split at h
  · cases h
  · next d others documents =>
    obtain ⟨k, decoded, h⟩ := bind_eq_ok_iff.1 h
    obtain ⟨_, alone, h⟩ := bind_eq_ok_iff.1 h
    cases h
    unfold require at alone
    split at alone
    · next whole =>
      simp only [Bool.and_eq_true, List.isEmpty_iff] at whole
      exact ⟨d, by rw [documents, whole.2], decoded⟩
    · cases alone

theorem Kptfile.parse_ok {text : String} {k : Kptfile} (h : Kptfile.parse text = .ok k) :
    ∃ d, Document.all text = [d] ∧ k.ReadFrom (Node.ofDocument d) := by
  obtain ⟨d, document, decoded⟩ := Kptfile.decode_of_parse h
  exact ⟨d, document, Kptfile.decode_ok decoded⟩

theorem Kptfile.ofBundle_missing {path : String} {files : Bundle}
    (h : Kptfile.ofBundle path files = .error .missing) : files.get? path = none := by
  unfold Kptfile.ofBundle at h
  split at h
  · next none => exact none
  · next text there =>
    cases parsed : Kptfile.parse text with
    | ok k =>
      rw [parsed] at h
      cases h
    | error fault =>
      rw [parsed] at h
      cases h

theorem Snapshot.clone_clones {path name : String} {resolved : Resolved} {s : Snapshot}
    (h : Snapshot.clone path name resolved.lock resolved.files = .ok s) :
    s.Clones path name resolved := by
  have written (k : Kptfile) : (Snapshot.write resolved.files k path).files.get? path = some k.render := by
    simp [Snapshot.write]
  have file (k : Kptfile) (p : String) (other : p ≠ path) :
      (Snapshot.write resolved.files k path).files.get? p = resolved.files.get? p := by
    simp [Snapshot.write, other]
  unfold Snapshot.clone at h
  split at h
  · next k read =>
    cases h
    obtain ⟨text, there, parsed⟩ := Kptfile.ofBundle_ok read
    refine ⟨file _, written _, rfl, rfl, rfl, fun none => ?_, fun text' there' => ?_⟩
    · rw [there] at none
      cases none
    · rw [there] at there'
      cases there'
      obtain ⟨d, document, read⟩ := Kptfile.parse_ok parsed
      exact ⟨d, document, read.carries rfl rfl rfl rfl rfl⟩
  · next missing =>
    cases h
    refine ⟨file _, written _, rfl, rfl, rfl, fun _ => rfl, fun text there => ?_⟩
    rw [Kptfile.ofBundle_missing missing] at there
    cases there
  · cases h

end Package

namespace Pipeline

variable {e : Engine} {J : Depot → Prop} {r : Revision} {c : Context} {d d' : Depot}

/-- **What a clone keeps.** Whatever others do meanwhile, a clone that succeeds has the files of what its
source came to, and its manifest has just the fields of the other manifest that a `Kptfile` has a place
for. -/
theorem step_clones {index : Nat} {current : Option Snapshot} {t : Task} {spec : CloneSpec}
    {s : Snapshot} (kind : t.kind = .clone) (payload : t.clone = some spec)
    (h : Routine.Within J (step e r c index current t).run d (.ok s) d') :
    ∃ resolved, spec.source.Gives e J resolved ∧
      s.Clones e.config.manifestFile r.package resolved := by
  obtain ⟨inner, u, applied⟩ := ends_step_ok h
  unfold apply at applied
  simp only [kind, payload] at applied
  obtain ⟨spec', v, given, applied⟩ := ends_bind_ok applied
  cases (ends_valid_ok given).1
  obtain ⟨resolved, w, source, applied⟩ := ends_bind_ok applied
  exact ⟨resolved, Resolve.within_source_ok source,
    Snapshot.clone_clones (ends_ofExcept_iff.1 applied).1.symm⟩

end Pipeline

/-! ## A package with labels -/

namespace Labelled

def place : GitLocation := ⟨"host/web", "v1", "web"⟩

/-- A manifest with a label and with a field that is not known. -/
def text : String :=
  "apiVersion: kpt.dev/v1\nkind: Kptfile\nmetadata:\n  name: web\n  labels:\n    app: web\nowner: us\n"

/-- The files of the package. -/
def files : Bundle := .ofList [("README.md", "web\n"), ("package.yaml", text)]

/-- A depot with the package that is to be cloned. -/
def depot : Depot where
  git := GitHost.setRef ∅ place.repo place.ref
    ⟨"c1", .ofList [("web/README.md", "web\n"), ("web/package.yaml", text)]⟩
  registry := (∅ : Registry).insert "apps" (.ofGit "apps" { repo := place.repo })

/-- Manifests are kept in a YAML file. -/
def config : Config := { manifestFile := "package.yaml" }

def engine : Engine := .ofConfig config Runtime.standard.evaluator

/-- A clone, and what is to be done behind it. -/
def revision (tasks : List Task) : Revision where
  package := "shop"
  revision := "v1"
  repository := "apps"
  tasks := .cloning (.ofGit place) :: tasks

def context : Context := ⟨[], none⟩

/-! ### What is read from the manifest -/

def outline : Outline :=
  Kptfile.outline [("name", .word "web"), ("labels", .mapping [("app", .word "web")])]
    [("owner", .word "us")]

theorem ofString_text : Token.ofString text = outline.tokens ++ [.streamEnd] :=
  Token.ofString_eq (by decide +kernel) (by decide +kernel)

theorem all_text : Document.all text = [outline.document] := Document.all_of_outline ofString_text

/-- The manifest without what is lost. -/
def kptfile : Kptfile where
  metadata := { name := "web" }
  extra := .ofList [("owner", .str "us")]

theorem parse_text : Kptfile.parse text = .ok kptfile := by
  have gathers : Kptfile.known.Gathers (Node.ofDocument outline.document).named Kptfile.known.start _ :=
    .mine (by decide) rfl <| .mine (by decide) rfl <| .mine (by decide) rfl <|
      .other (by decide) (.nil _)
  have kept : (Node.scalar ⟨"us", true, none⟩).kept? = some (.str "us") :=
    Node.kept?_word (by decide +kernel)
  rw [Kptfile.parse_of_outline ofString_text]
  exact Kptfile.decode_ok_iff.2
    ⟨_, [("owner", .str "us")], rfl, ⟨_, gathers, rfl⟩, .cons ⟨rfl, kept⟩ .nil, rfl⟩

/-! ### The clone -/

/-- The manifest of the clone. -/
def manifest : Kptfile where
  metadata := { name := "shop" }
  lineage := some ⟨.git, some place⟩
  lock := some (.ofGit ⟨place, "c1"⟩)
  extra := .ofList [("owner", .str "us")]

def cloned : Snapshot := .write files manifest "package.yaml"

theorem clone_files : Snapshot.clone "package.yaml" "shop" (.ofGit ⟨place, "c1"⟩) files = .ok cloned := by
  have read : Kptfile.ofBundle "package.yaml" files = .ok kptfile := mapError_eq_ok_iff.2 parse_text
  unfold Snapshot.clone
  rw [read]
  rfl

/-- The clone, where others may leave the depot as it is. -/
theorem ends_step {env : Depot → Depot → Prop} (idle : ∀ d, env d d) {M : Moment → Prop} (hM : M {})
    (tasks : List Task) (current : Option Snapshot) : Routine.Ends env M
      (Pipeline.step engine (revision tasks) context 0 current (.cloning (.ofGit place))).run depot
      (.ok cloned) depot := by
  have clones : Routine.Ends env M
      (Pipeline.step engine (revision tasks) context 0 current (.cloning (.ofGit place))).run depot
      ((Snapshot.clone "package.yaml" "shop" (.ofGit ⟨place, "c1"⟩) files).mapError (.task 0 .clone))
      depot :=
    Routine.ends_play hM (fun _ d => idle d) 0 _ _
  rwa [clone_files] at clones

end Labelled

open Labelled in
/-- The clone of a package that has a manifest. -/
theorem Pipeline.step_clones_labelled : (Task.cloning (.ofGit place)).kind = .clone ∧
    (Task.cloning (.ofGit place)).clone = some ⟨.ofGit place⟩ ∧
    Routine.Within (fun _ => True)
      (Pipeline.step engine (revision []) context 0 none (.cloning (.ofGit place))).run depot
      (.ok cloned) depot ∧
    ∃ resolved, (CloneSource.ofGit place).Gives engine (fun _ => True) resolved ∧
      cloned.Clones "package.yaml" "shop" resolved := by
  have payload : (Task.cloning (.ofGit place)).clone = some ⟨.ofGit place⟩ := rfl
  have ends : Routine.Within (fun _ => True)
      (Pipeline.step engine (revision []) context 0 none (.cloning (.ofGit place))).run depot
      (.ok cloned) depot := ends_step (fun _ => trivial) trivial [] none
  exact ⟨rfl, rfl, ends, Pipeline.step_clones rfl payload ends⟩

open Labelled in
/-- A package whose manifest has a label is cloned. A field that is not known is kept, but the label is lost. -/
theorem clone_loses_labels : ∃ f d s, depot.git.fetch place none = .ok f ∧
    f.files.get? "package.yaml" = some text ∧ Document.all text = [d] ∧
    Routine.Alone (fun _ => True)
      (Pipeline.step engine (revision []) context 0 none (.cloning (.ofGit place))).run depot (.ok s)
      depot ∧
    s.files.get? "package.yaml" = some s.kptfile.render ∧
    ((Node.ofDocument d).at? ["owner"]).bind Node.word? = some "us" ∧
    s.kptfile.toYaml.get? "owner" = some (.str "us") ∧
    ((Node.ofDocument d).at? ["metadata", "labels", "app"]).bind Node.word? = some "web" ∧
    s.kptfile.toYaml.at? ["metadata", "labels"] = none :=
  ⟨_, outline.document, cloned, rfl, rfl, all_text, ends_step Eq.refl trivial [] none,
    (Dict.get?_insert ..).trans (if_pos rfl), rfl, rfl, rfl, rfl⟩

end PackageDepot
