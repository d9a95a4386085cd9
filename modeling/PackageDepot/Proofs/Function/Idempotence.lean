import PackageDepot.Proofs.Function.Evaluation

/-!
# Running a function again

A document that a built-in function has changed needs no further change (`Aim.Changes.not_needed`): its texts
stand where they belong, or the change itself has marked it as local. So a file that was written anew is left
alone by a second run, and `Runtime.evaluate_idempotent` says that the second run answers the bundle that it was
given. That the documents of rewritten files are read back is all that is assumed.
-/

namespace PackageDepot

open Package Yaml Backend

namespace Builtin

variable {f : Builtin} {config : Dict String} {a : Aim} {text text' : String}

/-- What has become of a document needs no change. -/
theorem Aim.Changes.not_needed {v v' : Value} (h : a.Changes v v') : ¬ a.Needed v' := by
  cases h with
  | kept enough => exact enough
  | put _ _ met _ =>
    -- the resource may have been marked as local just now, but it has its texts in any case
    rintro ⟨_, -, -, missing⟩
    exact missing met

/-- Nor does a document that is written anew. -/
theorem not_needed_of_rewritten (h : f.Follows config a) {docs : List Value} :
    ∀ v ∈ f.rewritten config docs, ¬ a.Needed v := by
  intro v hv
  obtain ⟨w, -, rfl⟩ := List.mem_map.1 (List.mem_filter.1 hv).1
  exact (applyToDocument_changes h w).not_needed

/-- A text stays as it is if no document in it needs a change. -/
theorem applyToFile_of_idle (h : f.Follows config a) {docs : List Value}
    (read : Value.readAll? text = some docs) (idle : ∀ v ∈ docs, ¬ a.Needed v) :
    f.applyToFile config text = .ok text := by
  have silent : ¬ (docs.map (f.applyToDocument config)).any (·.2) = true := by
    rw [List.any_map, List.any_eq_true]
    intro rewrites
    obtain ⟨v, hv, needed⟩ := (rewrites_iff h).1 rewrites
    exact idle v hv needed
  rw [applyToFile, read]
  exact if_neg silent

/-- A text that a function has answered is answered by it again. -/
theorem applyToFile_again (h : f.Follows config a)
    (back : f.WritesBack config text) (done : f.applyToFile config text = .ok text') :
    f.applyToFile config text' = .ok text' := by
  obtain ⟨docs, read, kept, anew⟩ := applyToFile_ok h done
  by_cases needed : ∃ v ∈ docs, a.Needed v
  · rw [anew needed]
    have again := back docs read ((rewrites_iff h).2 needed)
    exact applyToFile_of_idle h again (not_needed_of_rewritten h)
  · rw [kept fun v hv hn => needed ⟨v, hv, hn⟩] at done ⊢
    exact done

/-- So are the files of a list. -/
theorem applyToFiles_again {l l' : List (String × String)} (h : f.Follows config a)
    (back : ∀ file ∈ l, isYaml file.1 = true → f.WritesBack config file.2)
    (done : f.applyToFiles config l = .ok l') : f.applyToFiles config l' = .ok l' := by
  induction l generalizing l' with
  | nil =>
    cases done
    rfl
  | cons file rest ih =>
    obtain ⟨path, text⟩ := file
    rw [applyToFiles_cons] at done
    obtain ⟨text', changed, done⟩ := bind_eq_ok_iff.1 done
    obtain ⟨rest', others, done⟩ := bind_eq_ok_iff.1 done
    cases done
    have behind := ih (fun file hf => back file (List.mem_cons_of_mem _ hf)) others
    rw [applyToFiles_cons]
    refine bind_eq_ok_iff.2 ⟨text', ?_, bind_eq_ok_iff.2 ⟨rest', behind, rfl⟩⟩
    split at changed
    · next yaml =>
      have again := applyToFile_again h (back (path, text) List.mem_cons_self yaml)
        (mapError_eq_ok_iff.1 changed)
      rw [if_pos yaml]
      exact mapError_eq_ok_iff.2 again
    · next plain => rw [if_neg plain]

end Builtin

namespace Runtime

open Builtin

variable {runtime : Runtime} {image : String} {config : Dict String} {files out : Bundle}

/-- An evaluation succeeds with what a configured function makes of the files. -/
theorem evaluate_eq_ok_iff : runtime.evaluate image config files = .ok out ↔
    ∃ f, runtime.get? (Image.functionName image) = some f ∧
      f.required.find? (fun key => !config.contains key) = none ∧
      f.applyToFiles config files.toList = .ok out.toList := by
  constructor
  · intro done
    obtain ⟨f, l, found, configured, applied, rfl⟩ := evaluate_ok done
    have increasing : l.Pairwise fun a b => a.1 < b.1 := by
      rw [← List.pairwise_map, (applyToFiles_ok applied).1, List.pairwise_map]
      exact files.increasing
    exact ⟨f, found, configured, by rw [applied, Dict.toList_ofList increasing]⟩
  · rintro ⟨f, found, configured, applied⟩
    rw [evaluate, found]
    dsimp only
    rw [configured, applied]
    exact congrArg Except.ok (Dict.ofList_of_perm (.refl _))

/-- **Evaluation is idempotent.** What a built-in function answers is answered by it again, file by file and
byte by byte, if only the documents that it writes are read back. -/
theorem evaluate_idempotent (done : standard.evaluate image config files = .ok out)
    (back : standard.ReadsBack image config files) : standard.evaluate image config out = .ok out := by
  obtain ⟨f, found, configured, applied⟩ := evaluate_eq_ok_iff.1 done
  obtain ⟨a, -, follows⟩ := standard_follows found configured
  refine evaluate_eq_ok_iff.2 ⟨f, found, configured, applyToFiles_again follows ?_ applied⟩
  exact fun file hf => back f file.1 file.2 found (Dict.get?_eq_some_iff.2 hf)

end Runtime

open Sample in
/-- The pod of the sample has its namespace after the first run, and nothing is left to do in the second. -/
theorem Runtime.evaluate_idempotent_sample : standard.evaluate image config files = .ok files' ∧
    standard.ReadsBack image config files ∧
    standard.evaluate image config files' = .ok files' :=
  ⟨evaluate_files, readsBack, evaluate_idempotent evaluate_files readsBack⟩

end PackageDepot
