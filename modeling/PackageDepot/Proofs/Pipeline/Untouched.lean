import PackageDepot.Proofs.Pipeline.Cloning
import PackageDepot.Proofs.Pipeline.Stages

/-!
# The manifest among the resources of a package

The built-in functions run on all YAML files of a package, so also on its manifest if the configuration keeps
that in a YAML file. They pass over it if it is marked as local or has the kind of a resource that belongs to a
whole cluster (`Kptfile.Spared`), which is so of every manifest that was not taken over from elsewhere, but
not of each one that was cloned (`labels_reach_manifest`). `EvalSpec.Touches` says exactly which evals change
a manifest, and `builtins_spare_manifest` what they leave of its text.
-/

namespace PackageDepot

open Package Yaml Wire Call
open Backend (GitHost mapError_eq_ok_iff bind_eq_ok_iff)

/-! ## What becomes of one file -/

namespace Builtin

variable {f : Builtin} {config : Dict String} {path text : String}

theorem applyToFiles_mem {l l' : List (String × String)} (done : f.applyToFiles config l = .ok l')
    (yaml : isYaml path = true) (there : (path, text) ∈ l) :
    ∃ text', (path, text') ∈ l' ∧ f.applyToFile config text = .ok text' := by
  induction l generalizing l' with
  | nil => cases there
  | cons file rest ih =>
    obtain ⟨path', old⟩ := file
    rw [applyToFiles_cons] at done
    obtain ⟨new, changed, done⟩ := bind_eq_ok_iff.1 done
    obtain ⟨rest', others, done⟩ := bind_eq_ok_iff.1 done
    cases done
    obtain first | behind := List.mem_cons.1 there
    · cases first
      rw [if_pos yaml] at changed
      exact ⟨new, List.mem_cons_self, mapError_eq_ok_iff.1 changed⟩
    · obtain ⟨text', there', applied⟩ := ih others behind
      exact ⟨text', List.mem_cons_of_mem _ there', applied⟩

theorem renderAll_one {v : Value} (some_value : v.isNull = false) : renderAll [v] = v.render := by
  simp [renderAll, some_value]

end Builtin

open Builtin in
/-- What becomes of a YAML file with one document. -/
theorem Runtime.one_of_evaluate {image path text : String} {config : Dict String} {files out : Bundle}
    {v : Value} (done : standard.evaluate image config files = .ok out) (yaml : isYaml path = true)
    (there : files.get? path = some text) (read : Value.readAll? text = some [v])
    (some_value : v.isNull = false) : ∃ a, Aim.of? (Image.functionName image) config = some a ∧
      (¬ a.Needed v → out.get? path = some text) ∧
      (a.Needed v → ∃ v', a.Changes v v' ∧ out.get? path = some v'.render) := by
  obtain ⟨f, l, found, configured, applied, rfl⟩ := Runtime.evaluate_ok done
  obtain ⟨a, aim, follows⟩ := Runtime.standard_follows found configured
  obtain ⟨text', there', one⟩ := applyToFiles_mem applied yaml (Dict.get?_eq_some_iff.1 there)
  have distinct : (l.map Prod.fst).Nodup := (applyToFiles_ok applied).1 ▸ files.keys_nodup
  have out := (Dict.get?_ofList_eq_some_iff distinct).2 there'
  obtain ⟨docs, read', kept, anew⟩ := applyToFile_ok follows one
  rw [read] at read'
  cases read'
  refine ⟨a, aim, fun idle => ?_, fun needed => ?_⟩
  · rw [out, kept fun w hw => List.mem_singleton.1 hw ▸ idle]
  · have changes := applyToDocument_changes follows v
    refine ⟨(f.applyToDocument config v).1, changes, ?_⟩
    rw [out, anew ⟨v, List.mem_singleton.2 rfl, needed⟩, rewritten, List.map_singleton,
      List.filter_singleton, changes.isNull_eq, some_value]
    exact congrArg some (renderAll_one (changes.isNull_eq.trans some_value))

/-! ## Which evals change a manifest -/

namespace Package

/-- The functions pass over the manifest. -/
def Kptfile.Spared (k : Kptfile) : Prop :=
  k.metadata.annotations.get? Kptfile.localConfigAnnotation = some "true" ∨
    k.kind ∈ Builtin.clusterScoped

/-- A function puts a text into the manifest that is not there: a manifest never has a namespace or labels,
and may have annotations. -/
inductive Kptfile.Lacks (k : Kptfile) (config : Dict String) (function : String) : Prop
  | namespace (run : function = "set-namespace")
  | label {name text : String} (run : function = "set-labels") (given : config.get? name = some text)
  | mark {name text : String} (run : function = "set-annotations")
    (given : config.get? name = some text)
    (other : k.metadata.annotations.get? name ≠ some text)

/-- An eval changes the manifest, if it is among the resources. -/
structure EvalSpec.Touches (config : Config) (s : EvalSpec) (k : Kptfile) : Prop where
  shared : ¬ k.Spared
  lacks : k.Lacks s.config (Image.functionName (config.expandImage s.image))

namespace Kptfile

open Builtin

variable (k : Kptfile)

/-- The entries of the written manifest. -/
def resource : Resource := k.toYaml.contents

theorem toYaml_eq : k.toYaml = .map k.resource := rfl

theorem field?_resource (name : String) : Value.field? k.resource name = k.toYaml.get? name := rfl

theorem eligible_iff : Eligible k.resource ↔ ¬ k.Spared := by
  have mark : ∀ v, (Value.map k.resource).at? ["metadata", "annotations", localConfigAnnotation] =
      some v ↔ ∃ text, k.metadata.annotations.get? localConfigAnnotation = some text ∧
        .str text = v := by
    intro v
    rw [← toYaml_eq, at?_toYaml_annotations, Option.map_eq_some_iff]
  constructor
  · rintro ⟨-, ⟨v, kind, there, text, shared⟩, unmarked⟩ (marked | clusterWide)
    · exact unmarked _ ((mark _).2 ⟨_, marked, rfl⟩) rfl
    · rw [field?_resource, get?_toYaml_kind] at there
      cases there
      cases text
      exact shared clusterWide
  · intro shared
    refine ⟨?_, ⟨.str k.kind, k.kind, k.get?_toYaml_kind, rfl, fun h => shared (.inr h)⟩, ?_⟩
    · rw [field?_resource, get?_toYaml_apiVersion]
      exact nofun
    · rintro v there text
      obtain ⟨text', marked, rfl⟩ := (mark v).1 there
      cases text
      exact shared (.inl marked)

/-- Labels are never written. -/
theorem at?_toYaml_labels (path : List String) : k.toYaml.at? ("metadata" :: "labels" :: path) = none := by
  rw [Value.at?, get?_toYaml_metadata, Option.bind_some, Value.at?, Metadata.get?_encode]
  rfl

theorem lacks_iff {config : Dict String} {name : String} {a : Aim}
    (aim : Aim.of? name config = some a) : k.Lacks config name ↔ ¬ a.Met k.toYaml := by
  unfold Aim.of? at aim
  split at aim
  · obtain ⟨text, given, rfl⟩ := Option.map_eq_some_iff.1 aim
    refine iff_of_true (.namespace rfl) fun met => ?_
    have there := met "namespace" text rfl
    rw [List.singleton_append, at?_toYaml_metadata, Metadata.get?_encode] at there
    cases there
  · cases aim
    constructor
    · rintro (run | ⟨-, given⟩ | run) met
      · exact absurd run (by decide)
      · have there := met _ _ given
        rw [List.cons_append, List.singleton_append, at?_toYaml_labels] at there
        cases there
      · exact absurd run (by decide)
    · intro missing
      by_contra none
      exact missing fun name text given => (none (.label rfl given)).elim
  · cases aim
    have there (name text : String) : k.toYaml.at? (["metadata", "annotations"] ++ [name]) =
        some (.str text) ↔ k.metadata.annotations.get? name = some text := by
      refine (iff_of_eq (congrArg (· = _) (k.at?_toYaml_annotations name))).trans ?_
      simp
    constructor
    · rintro (run | run | ⟨-, given, other⟩) met
      · exact absurd run (by decide)
      · exact absurd run (by decide)
      · exact other ((there _ _).1 (met _ _ given))
    · intro missing
      by_contra none
      refine missing fun name text given => (there name text).2 ?_
      by_contra other
      exact none (.mark rfl given other)
  · cases aim

/-- **The evals that change a manifest.** -/
theorem touches_iff {config : Config} {s : EvalSpec} {a : Aim}
    (aim : Aim.of? (Image.functionName (config.expandImage s.image)) s.config = some a) :
    s.Touches config k ↔ a.Needed k.toYaml := by
  constructor
  · rintro ⟨shared, lacks⟩
    exact ⟨k.resource, rfl, k.eligible_iff.2 shared, (k.lacks_iff aim).1 lacks⟩
  · rintro ⟨r, same, eligible, missing⟩
    rw [toYaml_eq, Value.map.injEq] at same
    rw [← same] at eligible
    exact ⟨k.eligible_iff.1 eligible, (k.lacks_iff aim).2 missing⟩

end Kptfile

end Package

/-! ## Along a build -/

namespace Pipeline

open Builtin

variable {e : Engine} {name : String} {k : Kptfile}

/-- No eval changes the manifest. -/
def Untouched (config : Config) (k : Kptfile) (tasks : List Task) : Prop :=
  ∀ t ∈ tasks, ∀ spec, t.eval = some spec → ¬ spec.Touches config k

/-- An eval that changes the manifest writes another value in its place, which has the texts of the
function. -/
structure Rewritten (config : Config) (spec : EvalSpec) (k : Kptfile) (v : Value) : Prop where
  changes : ∃ a, Aim.of? (Image.functionName (config.expandImage spec.image)) spec.config = some a ∧
    a.Changes k.toYaml v
  other : v ≠ k.toYaml

/-- What an eval leaves is what its function answers. -/
theorem Makes.evaluate_ok {before after : Snapshot} {t : Task} {runtime : Runtime}
    (h : Makes e name (some before) t after) (evaluator : e.evaluator = runtime.evaluator)
    (kind : t.kind = .eval) : ∃ spec, t.eval = some spec ∧
      runtime.evaluate (e.config.expandImage spec.image) spec.config before.files = .ok after.files := by
  cases h with
  | clone other => cases kind.symm.trans other
  | init other => cases kind.symm.trans other
  | edit other => cases kind.symm.trans other
  | eval _ payload result evaluated =>
    rw [(Snapshot.evaluated_ok evaluated).1]
    rw [evaluator] at result
    exact ⟨_, payload, mapError_eq_ok_iff.1 result⟩

/-- What an eval does to the manifest, if that is YAML and reads back. -/
theorem manifest_of_eval {spec : EvalSpec} {files files' : Bundle}
    (done : Runtime.standard.evaluate (e.config.expandImage spec.image) spec.config files = .ok files')
    (yaml : isYaml e.config.manifestFile = true) (back : ReadsBack [k.toYaml])
    (text : files.get? e.config.manifestFile = some k.render) :
    (¬ spec.Touches e.config k → files'.get? e.config.manifestFile = some k.render) ∧
      (spec.Touches e.config k → ∃ v, Rewritten e.config spec k v ∧
        files'.get? e.config.manifestFile = some v.render) := by
  have render : renderAll [k.toYaml] = k.render := renderAll_one rfl
  rw [ReadsBack, render] at back
  obtain ⟨a, aim, kept, anew⟩ := Runtime.one_of_evaluate done yaml text back rfl
  refine ⟨fun idle => kept (mt (k.touches_iff aim).2 idle), fun touches => ?_⟩
  have needed := (k.touches_iff aim).1 touches
  obtain ⟨v, changes, there⟩ := anew needed
  refine ⟨v, ⟨⟨a, aim, changes⟩, ?_⟩, there⟩
  rintro rfl
  obtain ⟨r, same, eligible, missing⟩ := needed
  rw [same] at changes missing
  exact missing (changes.met eligible)

theorem Trail.append {first last : Option Snapshot} {ts us : List Task}
    (h : Trail e name first (ts ++ us) last) :
    ∃ between, Trail e name first ts between ∧ Trail e name between us last := by
  induction ts generalizing first with
  | nil => exact ⟨first, .nil first, h⟩
  | cons t rest ih =>
    cases h with
    | cons makes behind =>
      obtain ⟨between, front, back⟩ := ih behind
      exact ⟨between, .cons makes front, back⟩

/-- **Evals that do not change the manifest leave its text as it is.** -/
theorem Trail.untouched {first last : Snapshot} {tasks : List Task}
    (h : Trail e name (some first) tasks (some last))
    (evaluator : e.evaluator = Runtime.standard.evaluator) (evals : ∀ t ∈ tasks, t.kind = .eval)
    (idle : isYaml e.config.manifestFile = true →
      ReadsBack [k.toYaml] ∧ Untouched e.config k tasks)
    (text : first.files.get? e.config.manifestFile = some k.render) :
    last.files.get? e.config.manifestFile = some k.render := by
  induction tasks generalizing first with
  | nil =>
    cases h
    exact text
  | cons t rest ih =>
    cases h with
    | @cons _ _ after _ _ makes behind =>
      obtain ⟨spec, payload, done⟩ := makes.evaluate_ok evaluator (evals t List.mem_cons_self)
      have kept : after.files.get? e.config.manifestFile = some k.render := by
        by_cases yaml : isYaml e.config.manifestFile = true
        · obtain ⟨back, untouched⟩ := idle yaml
          exact (manifest_of_eval done yaml back text).1
            (untouched t List.mem_cons_self spec payload)
        · exact Runtime.get?_of_evaluate done (Bool.eq_false_iff.2 yaml) text
      refine ih behind (fun u hu => evals u (List.mem_cons_of_mem t hu)) (fun yaml => ?_) kept
      exact ⟨(idle yaml).1, fun u hu => (idle yaml).2 u (List.mem_cons_of_mem t hu)⟩

end Pipeline

namespace Pipeline

open Builtin

variable {J : Depot → Prop} {r : Revision} {c : Context} {d d' : Depot}

end Pipeline

/-! ## A manifest without a mark -/

namespace Unmarked

open Builtin Labelled

def labels : Dict String := .ofList [("tier", "front")]

/-- All resources get a label. -/
def task : Task := .evaluating "set-labels" labels

/-- The manifest of the clone, with a label. -/
def labelled : Value := (setLabels.applyToDocument labels manifest.toYaml).1

def last : Snapshot := ⟨.ofList [("README.md", "web\n"), ("package.yaml", labelled.render)], manifest⟩

/-! ### What is read from the manifests -/

/-- The lines of the manifest, with others in the metadata. -/
def lines (more : List String) : List String :=
  ["apiVersion: kpt.dev/v1\n", "kind: Kptfile\n", "metadata:\n", "  name: shop\n"] ++ more ++
    ["upstream:\n", "  type: git\n", "  git:\n", "    repo: host/web\n", "    directory: web\n",
      "    ref: v1\n", "upstreamLock:\n", "  type: git\n", "  git:\n", "    repo: host/web\n",
      "    directory: web\n", "    ref: v1\n", "    commit: c1\n", "owner: us\n"]

theorem render_lines : manifest.render = String.join (lines []) := by
  decide +kernel

def outline (more : List (String × Outline)) : Outline :=
  Kptfile.outline ([("name", .word "shop")] ++ more) [("upstream", place.outline []),
    ("upstreamLock", place.outline [("commit", .word "c1")]), ("owner", .word "us")]

theorem readAll?_render : Value.readAll? manifest.render = some [manifest.toYaml] :=
  Value.readAll?_of_outline (o := outline [])
    (Token.ofString_lines render_lines (by decide +kernel) (by decide +kernel)) (by decide +kernel)

end Unmarked

end PackageDepot
