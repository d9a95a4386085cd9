import Mathlib.Data.List.Basic
import PackageDepot.Proofs.Function.Aim
import PackageDepot.Proofs.Pipeline.Spared
import PackageDepot.Proofs.Yaml.Outline

/-!
# What the built-in functions change

A file in which no document needs a change stays as it is, and so does a file that is not YAML. In every other
file the documents are read, changed and written anew, so what is in it afterwards hinges on the YAML reader
taking up what was written (`ReadsBack`). Granted that of the files that are written anew
(`Runtime.ReadsBack`), `Runtime.standard_changes` says of every file what a successful evaluation leaves there.
-/

namespace PackageDepot

open Package Yaml Backend

/-- The dictionary of a list with increasing keys has just its entries. -/
theorem Dict.toList_ofList {α : Type} {l : List (String × α)} (h : l.Pairwise fun a b => a.1 < b.1) :
    (Dict.ofList l).toList = l :=
  congrArg Dict.toList (Dict.ofList_of_perm (d := ⟨l, h⟩) (.refl l))

namespace Builtin

/-- The documents of a file that is written anew. -/
def rewritten (f : Builtin) (config : Dict String) (docs : List Value) : List Value :=
  (docs.map fun v => (f.applyToDocument config v).1).filter fun v => !v.isNull

/-- The documents can be read from the text that is written for them. -/
def ReadsBack (docs : List Value) : Prop := Value.readAll? (renderAll docs) = some docs

/-- The function changes one of the documents, so that their file is written anew. -/
def Rewrites (f : Builtin) (config : Dict String) (docs : List Value) : Prop :=
  ∃ v ∈ docs, (f.applyToDocument config v).2 = true

/-- If the documents of a text have to be written anew, they can be read again. -/
def WritesBack (f : Builtin) (config : Dict String) (text : String) : Prop :=
  ∀ docs, Value.readAll? text = some docs → f.Rewrites config docs → ReadsBack (f.rewritten config docs)

/-- What becomes of the text of a file. -/
inductive Aim.Affects (a : Aim) (path text : String) : String → Prop
  /-- The file is not YAML. -/
  | other : isYaml path = false → Affects a path text text
  /-- Nothing needs a change. -/
  | idle {docs : List Value} : isYaml path = true → Value.readAll? text = some docs →
      (∀ v ∈ docs, ¬ a.Needed v) → Affects a path text text
  /-- The documents that are not empty are changed, in their order. -/
  | anew {docs news : List Value} {text' : String} : isYaml path = true →
      Value.readAll? text = some docs → (∃ v ∈ docs, a.Needed v) →
      Value.readAll? text' = some news →
      List.Forall₂ a.Changes (docs.filter fun v => !v.isNull) news → Affects a path text text'

section Files

variable {f : Builtin} {config : Dict String} {a : Aim}

/-- The documents that are not empty are changed one by one. -/
theorem rewritten_changes (h : f.Follows config a) (docs : List Value) :
    List.Forall₂ a.Changes (docs.filter fun v => !v.isNull) (f.rewritten config docs) := by
  induction docs with
  | nil => exact .nil
  | cons v rest ih =>
    have first := applyToDocument_changes h v
    unfold rewritten
    rw [List.map_cons, List.filter_cons, List.filter_cons, first.isNull_eq]
    split
    · exact .cons first ih
    · exact ih

theorem rewrites_iff (h : f.Follows config a) {docs : List Value} :
    f.Rewrites config docs ↔ ∃ v ∈ docs, a.Needed v := by
  simp only [Rewrites, applyToDocument_snd h]

/-- The text of a file that is written anew. -/
theorem applyToFile_ok {text text' : String} (h : f.Follows config a)
    (done : f.applyToFile config text = .ok text') : ∃ docs, Value.readAll? text = some docs ∧
      ((∀ v ∈ docs, ¬ a.Needed v) → text' = text) ∧
      ((∃ v ∈ docs, a.Needed v) → text' = renderAll (f.rewritten config docs)) := by
  unfold applyToFile at done
  cases read : Value.readAll? text with
  | none =>
    rw [read] at done
    cases done
  | some docs =>
    rw [read] at done
    dsimp only at done
    have told : (docs.map (f.applyToDocument config)).any (·.2) = true ↔ ∃ v ∈ docs, a.Needed v := by
      rw [← rewrites_iff h, List.any_map, List.any_eq_true]
      rfl
    refine ⟨docs, rfl, fun idle => ?_, fun needed => ?_⟩
    · have silent : ¬ (docs.map (f.applyToDocument config)).any (·.2) = true := by
        rw [told]
        exact fun ⟨v, hv, needed⟩ => idle v hv needed
      rw [if_neg silent] at done
      exact (Except.ok.inj done).symm
    · rw [if_pos (told.2 needed)] at done
      rw [← Except.ok.inj done, renderAll, renderAll, rewritten, List.map_map, List.filter_filter]
      simp only [Bool.and_self]
      rfl

/-- What becomes of a YAML file. -/
theorem applyToFile_affects {path text text' : String} (h : f.Follows config a)
    (yaml : isYaml path = true)
    (back : f.WritesBack config text) (done : f.applyToFile config text = .ok text') :
    a.Affects path text text' := by
  obtain ⟨docs, read, kept, anew⟩ := applyToFile_ok h done
  by_cases needed : ∃ v ∈ docs, a.Needed v
  · rw [anew needed]
    have again := back docs read ((rewrites_iff h).2 needed)
    exact .anew yaml read needed again (rewritten_changes h docs)
  · have none : ∀ v ∈ docs, ¬ a.Needed v := fun v hv hn => needed ⟨v, hv, hn⟩
    rw [kept none]
    exact .idle yaml read none

/-- What becomes of the files of a list. -/
theorem applyToFiles_affects {l l' : List (String × String)} (h : f.Follows config a)
    (back : ∀ file ∈ l, isYaml file.1 = true → f.WritesBack config file.2)
    (done : f.applyToFiles config l = .ok l') :
    ∀ file ∈ l, ∃ text', (file.1, text') ∈ l' ∧ a.Affects file.1 file.2 text' := by
  induction l generalizing l' with
  | nil => exact nofun
  | cons file rest ih =>
    obtain ⟨path, text⟩ := file
    rw [applyToFiles_cons] at done
    obtain ⟨text', changed, done⟩ := bind_eq_ok_iff.1 done
    obtain ⟨rest', others, done⟩ := bind_eq_ok_iff.1 done
    cases done
    have first : a.Affects path text text' := by
      split at changed
      · next yaml =>
        exact applyToFile_affects h yaml (back (path, text) List.mem_cons_self yaml)
          (mapError_eq_ok_iff.1 changed)
      · next plain =>
        cases changed
        exact .other (Bool.eq_false_iff.2 plain)
    refine List.forall_mem_cons.2 ⟨⟨text', List.mem_cons_self, first⟩, fun file hf => ?_⟩
    obtain ⟨text', there, behind⟩ :=
      ih (fun file hf => back file (List.mem_cons_of_mem _ hf)) others file hf
    exact ⟨text', List.mem_cons_of_mem _ there, behind⟩

end Files

/-! ## The functions that are always there -/

theorem setTexts_one (name text : String) (r : Resource) :
    setTexts [(name, text)] r = setText name text r := by
  simp only [setTexts, Bool.or_false]

theorem setNamespace_follows {config : Dict String} {text : String}
    (given : config.get? "namespace" = some text) :
    setNamespace.Follows config ⟨["metadata"], .ofList [("namespace", text)]⟩ := by
  intro r
  have path : updatePath [("namespace", text)] ["metadata"] =
      updateChild "metadata" (setText "namespace" text) :=
    congrArg (updateChild "metadata") (funext (setTexts_one "namespace" text))
  have entry : (Dict.ofList [("namespace", text)]).toList = [("namespace", text)] := rfl
  rw [entry, if_neg nofun, path]
  simp only [setNamespace, given]

theorem setMetadata_follows (field : String) (config : Dict String) :
    Follows { mutate := setMetadata field } config ⟨["metadata", field], config⟩ := by
  intro r
  simp only [setMetadata, Dict.isEmpty, List.isEmpty_iff]
  rfl

end Builtin

namespace Runtime

open Builtin

theorem mem_of_standard {name : String} {f : Builtin} (h : standard.get? name = some f) :
    (name, f) ∈ [("set-namespace", setNamespace), ("set-labels", setLabels),
      ("set-annotations", setAnnotations)] :=
  (Dict.get?_ofList_eq_some_iff (by decide)).1 h

/-- Every function that is always there follows its aim, if it has the configuration that it needs. -/
theorem standard_follows {name : String} {f : Builtin} {config : Dict String}
    (h : standard.get? name = some f)
    (configured : f.required.find? (fun key => !config.contains key) = none) :
    ∃ a, Aim.of? name config = some a ∧ f.Follows config a := by
  have there := mem_of_standard h
  simp only [List.mem_cons, Prod.mk.injEq, List.not_mem_nil, or_false] at there
  obtain ⟨rfl, rfl⟩ | ⟨rfl, rfl⟩ | ⟨rfl, rfl⟩ := there
  · have given := List.find?_eq_none.1 configured "namespace" List.mem_cons_self
    obtain ⟨text, given⟩ := Dict.contains_iff.1 (by simpa using given)
    exact ⟨_, congrArg (Option.map _) given, setNamespace_follows given⟩
  · exact ⟨_, rfl, setMetadata_follows "labels" config⟩
  · exact ⟨_, rfl, setMetadata_follows "annotations" config⟩

/-- What the function of an image writes into a bundle can be read again, in each YAML file that is written
anew. -/
def ReadsBack (runtime : Runtime) (image : String) (config : Dict String) (files : Bundle) : Prop :=
  ∀ f path text, runtime.get? (Image.functionName image) = some f → files.get? path = some text →
    isYaml path = true → f.WritesBack config text

variable {image : String} {config : Dict String} {files out : Bundle}

/-- **What the built-in functions change.** An evaluation that succeeds keeps the paths of the files. It
leaves those alone that are not YAML and those in which no document needs a change; in all others it puts the
texts of its aim into the eligible documents and changes nothing else. -/
theorem standard_changes (done : standard.evaluate image config files = .ok out)
    (back : standard.ReadsBack image config files) :
    ∃ a, Aim.of? (Image.functionName image) config = some a ∧ out.keys = files.keys ∧
      ∀ path text, files.get? path = some text →
        ∃ text', out.get? path = some text' ∧ a.Affects path text text' := by
  obtain ⟨f, l, found, configured, applied, rfl⟩ := evaluate_ok done
  obtain ⟨a, aim, follows⟩ := standard_follows found configured
  have paths := (applyToFiles_ok applied).1
  have increasing : l.Pairwise fun a b => a.1 < b.1 := by
    rw [← List.pairwise_map, paths, List.pairwise_map]
    exact files.increasing
  refine ⟨a, aim, ?_, fun path text there => ?_⟩
  · rw [Dict.keys, Dict.toList_ofList increasing]
    exact paths
  · have affected := applyToFiles_affects follows (fun file hf =>
      back f file.1 file.2 found (Dict.get?_eq_some_iff.2 hf)) applied
    obtain ⟨text', there', affects⟩ := affected (path, text) (Dict.get?_eq_some_iff.1 there)
    refine ⟨text', ?_, affects⟩
    rwa [Dict.get?_eq_some_iff, Dict.toList_ofList increasing]

end Runtime

/-! ## A file with three documents -/

namespace Sample

open Builtin PackageDepot.Runtime

/-- A pod, nothing, and a node, which belongs to a whole cluster. -/
def text : String := "kind: Pod\napiVersion: v1\n---\nnull\n---\nkind: Node\napiVersion: v1\n"

/-- The pod has a namespace, and the empty document is gone. -/
def text' : String :=
  "kind: Pod\napiVersion: v1\nmetadata:\n  namespace: web\n---\nkind: Node\napiVersion: v1\n"

def resource (kind : String) (more : List (String × Outline)) : Outline :=
  .mapping ([("kind", .word kind), ("apiVersion", .word "v1")] ++ more)

def pod : Outline := resource "Pod" [("metadata", .mapping [("namespace", .word "web")])]

def documents : List Value := [resource "Pod" [], .null, resource "Node" []].map Outline.value

def documents' : List Value := [pod, resource "Node" []].map Outline.value

theorem readAll?_text : Value.readAll? text = some documents :=
  Value.readAll?_of_tokens (Token.ofString_eq (by decide +kernel) (by decide +kernel)) (by decide +kernel)

theorem readAll?_text' : Value.readAll? text' = some documents' :=
  Value.readAll?_of_tokens (Token.ofString_eq (by decide +kernel) (by decide +kernel)) (by decide +kernel)

/-! ### What the function does with them -/

def image : String := "gcr.io/kpt-fn/set-namespace:v0.2"

def config : Dict String := .ofList [("namespace", "web")]

def files : Bundle := .ofList [("README.md", "kind: Pod\n"), ("empty.yaml", ""), ("web.yaml", text)]

def files' : Bundle := .ofList [("README.md", "kind: Pod\n"), ("empty.yaml", ""), ("web.yaml", text')]

theorem renderAll_documents' : renderAll documents' = text' := by
  decide +kernel

theorem functionName_image : Image.functionName image = "set-namespace" := by
  decide +kernel

theorem toList_files :
    files.toList = [("README.md", "kind: Pod\n"), ("empty.yaml", ""), ("web.yaml", text)] := rfl

theorem evaluate_files : standard.evaluate image config files = .ok files' := by
  have applied : setNamespace.applyToFile config text = .ok text' := by
    have changes : documents.map (setNamespace.applyToDocument config) =
        [(documents'[0], true), (.null, false), (documents'[1], false)] := rfl
    rw [applyToFile, readAll?_text]
    dsimp only
    rw [changes, ← renderAll_documents']
    rfl
  have empty : setNamespace.applyToFile config "" = .ok "" := by
    rw [applyToFile, Value.readAll?_empty]
    rfl
  have all : setNamespace.applyToFiles config files.toList = .ok files'.toList := by
    rw [toList_files, applyToFiles_cons, applyToFiles_cons, applyToFiles_cons, applied, empty]
    rfl
  have found : standard.get? "set-namespace" = some setNamespace := rfl
  have configured : setNamespace.required.find? (fun key => !config.contains key) = none := rfl
  rw [evaluate, functionName_image, found]
  dsimp only
  rw [configured, all]
  rfl

/-- The empty file is not written anew, and would not be read back. -/
theorem readsBack : standard.ReadsBack image config files := by
  intro f path contents named there yaml docs read rewrites
  rw [functionName_image] at named
  cases named
  rw [Dict.get?_eq_some_iff, toList_files] at there
  simp only [List.mem_cons, Prod.mk.injEq, List.not_mem_nil, or_false] at there
  obtain ⟨rfl, -⟩ | ⟨-, rfl⟩ | ⟨-, rfl⟩ := there
  · cases yaml
  · rw [Value.readAll?_empty] at read
    cases read
    obtain ⟨v, hv, changed⟩ := rewrites
    cases List.mem_singleton.1 hv
    cases changed
  · rw [readAll?_text] at read
    cases read
    have anew : setNamespace.rewritten config documents = documents' := rfl
    rw [anew, Builtin.ReadsBack, renderAll_documents', readAll?_text']

end Sample

open Sample in
/-- The pod of the sample has its namespace afterwards, and nothing else is changed. -/
theorem Runtime.standard_changes_sample :
    standard.evaluate image config files = .ok files' ∧
    standard.ReadsBack image config files ∧
    ∃ a, Builtin.Aim.of? (Image.functionName image) config = some a ∧ files'.keys = files.keys ∧
      ∀ path text, files.get? path = some text →
        ∃ text', files'.get? path = some text' ∧ a.Affects path text text' :=
  ⟨evaluate_files, readsBack, standard_changes evaluate_files readsBack⟩

end PackageDepot
