import PackageDepot.Package.Revision
import PackageDepot.Proofs.Wire.Lawful
import PackageDepot.Repository.Basic

/-!
# The wire forms of repositories, packages and credentials

Each codec is lawful because its fields are, and because what is left out of a record is just what a missing
field stands for. So every value that goes over the wire comes back as it was, and so does what is inside it.
-/

namespace PackageDepot

open Wire Wire.Codec
open Wire.Record.Restores (of)

/-! ## Repositories, functions and credentials -/

theorem Backing.codec_lawful : Backing.codec.Lawful := named_lawful (by rintro (_ | _) <;> rfl)

theorem Content.codec_lawful : Content.codec.Lawful := named_lawful (by rintro (_ | _) <;> rfl)

theorem SecretRef.codec_lawful : SecretRef.codec.Lawful :=
  record_lawful (fun _ => (of _).also (.withDefault text_lawful)) (fun _ => rfl) rfl

theorem GitSource.codec_lawful : GitSource.codec.Lawful :=
  record_lawful (fun _ => (of _).also (.required text_lawful)
    |>.also (.withDefault text_lawful)
    |>.also (.elided text_lawful)
    |>.also (.elided SecretRef.codec_lawful)) (fun _ => rfl) rfl

theorem OciSource.codec_lawful : OciSource.codec.Lawful :=
  record_lawful (fun _ => (of _).also (.required text_lawful)) (fun _ => rfl) rfl

theorem Repository.codec_lawful : Repository.codec.Lawful :=
  record_lawful (fun _ => (of _).also (.required text_lawful)
    |>.also (.elided text_lawful)
    |>.also (.elided text_lawful)
    |>.also (.required Backing.codec_lawful)
    |>.also (.withDefault Content.codec_lawful)
    |>.also (.optional GitSource.codec_lawful)
    |>.also (.optional OciSource.codec_lawful)) (fun _ => rfl) rfl

theorem FunctionKind.codec_lawful : FunctionKind.codec.Lawful :=
  named_lawful (by rintro (_ | _) <;> rfl)

theorem Function.codec_lawful : Function.codec.Lawful :=
  record_lawful (fun _ => (of _).also (.required text_lawful)
    |>.also (.required text_lawful)
    |>.also (.required text_lawful)
    |>.also (.elided text_lawful)
    |>.also (.elided (list_lawful FunctionKind.codec_lawful))
    |>.also (.elided (list_lawful text_lawful))) (fun _ => rfl) rfl

theorem Credential.codec_lawful : Credential.codec.Lawful :=
  record_lawful (fun _ => (of _)
    |>.also (.required text_lawful)
    |>.also (.required text_lawful)) (fun _ => rfl) rfl

namespace Package

/-! ## Where packages come from -/

theorem Origin.codec_lawful : Origin.codec.Lawful := named_lawful fun .git => rfl

theorem GitLocation.codec_lawful : GitLocation.codec.Lawful :=
  record_lawful (fun _ => (of _).also (.required text_lawful)
    |>.also (.required text_lawful)
    |>.also (.withDefault text_lawful)) (fun _ => rfl) rfl

theorem GitLock.codec_lawful : GitLock.codec.Lawful :=
  record_lawful (fun _ => (of _).also (.required text_lawful)
    |>.also (.withDefault text_lawful)
    |>.also (.required text_lawful)
    |>.also (.required text_lawful)) (fun _ => rfl) rfl

theorem Lock.codec_lawful : Lock.codec.Lawful :=
  record_lawful (fun _ => (of _).also (.required Origin.codec_lawful)
    |>.also (.optional GitLock.codec_lawful)) (fun _ => rfl) rfl

/-! ## Tasks -/

theorem TaskKind.codec_lawful : TaskKind.codec.Lawful :=
  named_lawful (by rintro (_ | _ | _ | _) <;> rfl)

theorem RevisionRef.codec_lawful : RevisionRef.codec.Lawful :=
  record_lawful (fun _ => (of _).also (.required text_lawful)) (fun _ => rfl) rfl

theorem CloneSource.codec_lawful : CloneSource.codec.Lawful :=
  record_lawful (fun _ => (of _).also (.optional Origin.codec_lawful)
    |>.also (.optional GitLocation.codec_lawful)
    |>.also (.optional RevisionRef.codec_lawful)) (fun _ => rfl) rfl

theorem CloneSpec.codec_lawful : CloneSpec.codec.Lawful :=
  record_lawful (fun _ => (of _).also (.required CloneSource.codec_lawful)) (fun _ => rfl) rfl

theorem InitSpec.codec_lawful : InitSpec.codec.Lawful :=
  record_lawful (fun _ => (of _).also (.elided text_lawful)
    |>.also (.elided (list_lawful text_lawful))
    |>.also (.elided text_lawful)) (fun _ => rfl) rfl

theorem EvalSpec.codec_lawful : EvalSpec.codec.Lawful :=
  record_lawful (fun _ => (of _).also (.required text_lawful)
    |>.also (.withDefault (dict_lawful text_lawful))) (fun _ => rfl) rfl

theorem PatchKind.codec_lawful : PatchKind.codec.Lawful :=
  named_lawful (by rintro (_ | _ | _) <;> rfl)

theorem Patch.codec_lawful : Patch.codec.Lawful :=
  record_lawful (fun _ => (of _).also (.required text_lawful)
    |>.also (.elided text_lawful)
    |>.also (.required PatchKind.codec_lawful)) (fun _ => rfl) rfl

theorem EditSpec.codec_lawful : EditSpec.codec.Lawful :=
  record_lawful (fun _ => (of _).also (.withDefault (list_lawful Patch.codec_lawful))) (fun _ => rfl) rfl

theorem Task.codec_lawful : Task.codec.Lawful :=
  record_lawful (fun _ => (of _).also (.required TaskKind.codec_lawful)
    |>.also (.optional CloneSpec.codec_lawful)
    |>.also (.optional InitSpec.codec_lawful)
    |>.also (.optional EvalSpec.codec_lawful)
    |>.also (.optional EditSpec.codec_lawful)) (fun _ => rfl) rfl

/-! ## Revisions and their files -/

theorem Revision.codec_lawful : Revision.codec.Lawful :=
  record_lawful (fun _ => (of _).also (.required text_lawful)
    |>.also (.required text_lawful)
    |>.also (.required text_lawful)
    |>.also (.withDefault (list_lawful Task.codec_lawful))) (fun _ => rfl) rfl

theorem RevisionFiles.codec_lawful : RevisionFiles.codec.Lawful :=
  record_lawful (fun _ => (of _).also (.required text_lawful)
    |>.also (.required text_lawful)
    |>.also (.required text_lawful)
    |>.also (.required text_lawful)
    |>.also (.required (dict_lawful text_lawful))) (fun _ => rfl) rfl

end Package

/-! ## Every type that goes over the wire -/

open Package in
/-- **Wire forms round-trip.** Every value, well-formed or not, is read back from its JSON value and from its
YAML value: repositories, upstream packages, tasks, revisions, locks, functions, the files of revisions and
credentials, and whatever stands inside them. So at every level of nesting, what is left out is what a
missing field stands for. -/
theorem wire_forms_round_trip :
    (Repository.codec.RoundTrips ∧ CloneSource.codec.RoundTrips ∧ Task.codec.RoundTrips ∧
      Revision.codec.RoundTrips ∧ Lock.codec.RoundTrips ∧ Function.codec.RoundTrips ∧
      RevisionFiles.codec.RoundTrips ∧ Credential.codec.RoundTrips) ∧
    -- inside a repository
    (GitSource.codec.RoundTrips ∧ SecretRef.codec.RoundTrips ∧ OciSource.codec.RoundTrips) ∧
    -- inside a task
    (CloneSpec.codec.RoundTrips ∧ GitLocation.codec.RoundTrips ∧ RevisionRef.codec.RoundTrips ∧
      InitSpec.codec.RoundTrips ∧ EvalSpec.codec.RoundTrips ∧ EditSpec.codec.RoundTrips ∧
      Patch.codec.RoundTrips) ∧
    -- inside a lock
    GitLock.codec.RoundTrips := by
  refine ⟨⟨?_, ?_, ?_, ?_, ?_, ?_, ?_, ?_⟩, ⟨?_, ?_, ?_⟩, ⟨?_, ?_, ?_, ?_, ?_, ?_, ?_⟩, ?_⟩
  · exact Repository.codec_lawful.roundTrips
  · exact CloneSource.codec_lawful.roundTrips
  · exact Task.codec_lawful.roundTrips
  · exact Revision.codec_lawful.roundTrips
  · exact Lock.codec_lawful.roundTrips
  · exact Function.codec_lawful.roundTrips
  · exact RevisionFiles.codec_lawful.roundTrips
  · exact Credential.codec_lawful.roundTrips
  · exact GitSource.codec_lawful.roundTrips
  · exact SecretRef.codec_lawful.roundTrips
  · exact OciSource.codec_lawful.roundTrips
  · exact CloneSpec.codec_lawful.roundTrips
  · exact GitLocation.codec_lawful.roundTrips
  · exact RevisionRef.codec_lawful.roundTrips
  · exact InitSpec.codec_lawful.roundTrips
  · exact EvalSpec.codec_lawful.roundTrips
  · exact EditSpec.codec_lawful.roundTrips
  · exact Patch.codec_lawful.roundTrips
  · exact GitLock.codec_lawful.roundTrips

open Package in
/-- A task that starts a package about which nothing is said. -/
example : Task.codec.toJson (.starting {}) =
    .obj [("type", .str "init"), ("init", .obj [])] := by
  rfl

end PackageDepot
