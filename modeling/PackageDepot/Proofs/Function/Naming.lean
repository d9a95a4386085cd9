import Mathlib.Data.List.TakeWhile
import PackageDepot.Config
import PackageDepot.Proofs.Pipeline.Spared

/-!
# An image tells its function however it is written

`Image.Holds` says where the name of a function stands in the name of an image: behind the last slash, and in
front of a tag or a digest. `Image.functionName_eq_iff` says that this is the name that is read. So what stands
in front of a slash does not count, a short name and its expansion tell the same function, and
`Image.runsAs_iff` says that two names run alike just if they do. `Config.image_names_agree` puts listing,
expansion and evaluation together.
-/

namespace PackageDepot

open Package Backend

namespace Text

variable {s t : List Char}

/-- What is taken from a text ends in front of the first character that does not belong to it. -/
theorem takeWhile_eq_iff {p : Char → Bool} : s.takeWhile p = t ↔
    (∀ c ∈ t, p c = true) ∧ ∃ rest, s = t ++ rest ∧ ∀ c ∈ rest.head?, p c = false := by
  constructor
  · rintro rfl
    refine ⟨fun c hc => List.mem_takeWhile_imp hc, s.dropWhile p,
      List.takeWhile_append_dropWhile.symm, fun c hc => ?_⟩
    have stop := List.head?_dropWhile_not p s
    rw [Option.mem_def.1 hc] at stop
    exact stop
  · rintro ⟨inside, rest, rfl, stop⟩
    have ended : rest.takeWhile p = [] := by
      cases rest with
      | nil => rfl
      | cons c rest => simp [stop c rfl]
    rw [List.takeWhile_append_of_pos inside, ended, List.append_nil]

/-- Behind the last `sep` stands what has no `sep`, and begins the text or follows one. -/
theorem afterLast_eq_iff {sep : Char} : afterLast sep s = t ↔
    sep ∉ t ∧ ∃ front, s = front ++ t ∧ ∀ c ∈ front.getLast?, c = sep := by
  rw [afterLast, List.reverse_eq_iff, takeWhile_eq_iff]
  constructor
  · rintro ⟨inside, rest, whole, stop⟩
    refine ⟨fun h => ?_, rest.reverse, ?_, ?_⟩
    · simpa using inside sep (List.mem_reverse.2 h)
    · rw [← List.reverse_reverse s, whole, List.reverse_append, List.reverse_reverse]
    · simpa [List.getLast?_reverse] using stop
  · rintro ⟨free, front, rfl, stop⟩
    refine ⟨fun c hc => ?_, front.reverse, List.reverse_append, ?_⟩
    · have other : c ≠ sep := fun same => free (same ▸ List.mem_reverse.1 hc)
      simpa using other
    · simpa [List.head?_reverse] using stop

end Text

namespace Image

variable {registry image name tag : String}

/-! ## The name that is read -/

/-- The name of a function has no slash, and nothing in it begins a tag or a digest. -/
def IsFunctionName (name : String) : Prop :=
  '/' ∉ name.toList ∧ ':' ∉ name.toList ∧ '@' ∉ name.toList

instance (name : String) : Decidable (IsFunctionName name) :=
  inferInstanceAs (Decidable ('/' ∉ name.toList ∧ _))

theorem isFunctionName_iff : IsFunctionName name ↔
    '/' ∉ name.toList ∧ ∀ c ∈ name.toList, c ≠ ':' ∧ c ≠ '@' := by
  refine and_congr_right fun _ => ⟨fun ⟨colon, mark⟩ c hc => ?_, fun others => ?_⟩
  · exact ⟨fun h => colon (h ▸ hc), fun h => mark (h ▸ hc)⟩
  · exact ⟨fun h => (others _ h).1 rfl, fun h => (others _ h).2 rfl⟩

/-- An image holds the function whose name follows the address of its registry, if there is one, and is
followed by its version, if there is one. -/
structure Written (image name : String) (address version : List Char) : Prop where
  whole : image.toList = address ++ (name.toList ++ version)
  ends : ∀ c ∈ address.getLast?, c = '/'
  begins : ∀ c ∈ version.head?, c = ':' ∨ c = '@'
  slashless : '/' ∉ version

/-- The name of an image tells this function. -/
def Holds (image name : String) : Prop :=
  IsFunctionName name ∧ ∃ address version, Written image name address version

/-- **The name that is read from an image is that of the function that it holds.** -/
theorem functionName_eq_iff : functionName image = name ↔ Holds image name := by
  have characters : functionName image = name ↔
      ((Text.afterLast '/' image.toList).takeWhile (· != '@')).takeWhile (· != ':') = name.toList := by
    rw [functionName, ← String.toList_inj, String.toList_ofList]
  have goesOn (c : Char) : decide ((c != ':') = true ∧ (c != '@') = true) = true ↔
      c ≠ ':' ∧ c ≠ '@' := by simp
  have stops (c : Char) : decide ((c != ':') = true ∧ (c != '@') = true) = false ↔
      c = ':' ∨ c = '@' := by simp [← or_iff_not_imp_left]
  rw [characters, List.takeWhile_takeWhile, Text.takeWhile_eq_iff, Holds, isFunctionName_iff]
  simp only [goesOn, stops]
  constructor
  · rintro ⟨inside, version, last, begins⟩
    obtain ⟨slashless, address, whole, ends⟩ := Text.afterLast_eq_iff.1 last
    rw [List.mem_append, not_or] at slashless
    exact ⟨⟨slashless.1, inside⟩, address, version, whole, ends, begins, slashless.2⟩
  · rintro ⟨⟨slash, inside⟩, address, version, whole, ends, begins, slashless⟩
    have last : Text.afterLast '/' image.toList = name.toList ++ version :=
      Text.afterLast_eq_iff.2 ⟨by simp [slash, slashless], address, whole, ends⟩
    exact ⟨inside, version, last, begins⟩

theorem isFunctionName_functionName (image : String) : IsFunctionName (functionName image) :=
  (functionName_eq_iff.1 rfl).1

/-- A name of a function is its own. -/
theorem functionName_eq_self_iff : functionName name = name ↔ IsFunctionName name := by
  constructor
  · intro same
    exact same ▸ isFunctionName_functionName name
  · intro proper
    exact functionName_eq_iff.2 ⟨proper, [], [], by simp, nofun, nofun, nofun⟩

/-- What stands in front of a slash does not count. -/
theorem functionName_behind (front image : String) :
    functionName (front ++ "/" ++ image) = functionName image := by
  obtain ⟨proper, address, version, whole, ends, begins, slashless⟩ :=
    functionName_eq_iff.1 (rfl : functionName image = _)
  refine functionName_eq_iff.2
    ⟨proper, front.toList ++ '/' :: address, version, ?_, ?_, begins, slashless⟩
  · simp [whole]
  · intro c hc
    cases address with
    | nil => simpa using hc.symm
    | cons d address => exact ends c (by simpa using hc)

/-! ## Short names and published ones -/

theorem expand_of_mem (h : '/' ∈ image.toList) : expand registry image = image := by
  rw [expand, if_pos (List.contains_iff_mem.2 h)]

theorem expand_of_not_mem (h : '/' ∉ image.toList) :
    expand registry image = String.ofList (Text.trimEnd '/' registry.toList) ++ "/" ++ image := by
  rw [expand, if_neg (mt List.contains_iff_mem.1 h)]

/-- An expanded name is not short. -/
theorem mem_expand (registry image : String) : '/' ∈ (expand registry image).toList := by
  by_cases h : '/' ∈ image.toList
  · rwa [expand_of_mem h]
  · rw [expand_of_not_mem h]
    simp

/-- An expanded name stays as it is, whatever the registry. -/
theorem expand_expand (registry registry' image : String) :
    expand registry' (expand registry image) = expand registry image :=
  expand_of_mem (mem_expand registry image)

/-- Expansion keeps the name of the function. -/
theorem functionName_expand (registry image : String) :
    functionName (expand registry image) = functionName image := by
  by_cases h : '/' ∈ image.toList
  · rw [expand_of_mem h]
  · rw [expand_of_not_mem h, functionName_behind]

/-- A function is published under its short name, behind the address of the registry. -/
theorem published_eq (registry name tag : String) : published registry name tag =
    String.ofList (Text.trimEnd '/' registry.toList) ++ "/" ++ (name ++ ":" ++ tag) := by
  simp only [published, String.append_assoc]

theorem expand_published (registry registry' name tag : String) :
    expand registry' (published registry name tag) = published registry name tag :=
  expand_of_mem (by simp [published])

/-- What stands in front of a tag is read just if it is the name of a function. -/
theorem functionName_short_iff (slashless : '/' ∉ tag.toList) :
    functionName (name ++ ":" ++ tag) = name ↔ IsFunctionName name := by
  constructor
  · intro same
    exact same ▸ isFunctionName_functionName _
  · intro proper
    exact functionName_eq_iff.2
      ⟨proper, [], ':' :: tag.toList, by simp, nofun, by simp, by simpa using slashless⟩

/-- So is the name under which a function is published. -/
theorem functionName_published_iff (slashless : '/' ∉ tag.toList) :
    functionName (published registry name tag) = name ↔ IsFunctionName name := by
  rw [published_eq, functionName_behind, functionName_short_iff slashless]

/-- A short name expands to the published one just if it has no slash. -/
theorem expand_short_iff : expand registry (name ++ ":" ++ tag) = published registry name tag ↔
    '/' ∉ name.toList ∧ '/' ∉ tag.toList := by
  have short : '/' ∉ (name ++ ":" ++ tag).toList ↔ '/' ∉ name.toList ∧ '/' ∉ tag.toList := by
    simp
  rw [← short, published_eq]
  constructor
  · intro same slash
    rw [expand_of_mem slash] at same
    -- the published name is longer than the short one
    have lengths := congrArg String.length same
    simp at lengths
  · exact expand_of_not_mem

end Image

/-! ## Running an image -/

/-- The fault as it is told of another image. -/
def FunctionFault.retold (image : String) : FunctionFault → FunctionFault
  | .unknownFunction _ => .unknownFunction image
  | .manifestRemoved _ file => .manifestRemoved image file
  | .manifestUnusable _ refusal => .manifestUnusable image refusal
  | .renamed _ before after => .renamed image before after
  | .missingConfig name key => .missingConfig name key
  | .unreadableFile path fault => .unreadableFile path fault
  | .reported text => .reported text

/-- Changing files fails only because of a file that cannot be read. -/
theorem Builtin.applyToFiles_error {f : Builtin} {config : Dict String} {l : List (String × String)}
    {fault : FunctionFault} (h : f.applyToFiles config l = .error fault) :
    ∃ path cause, fault = .unreadableFile path cause := by
  induction l with
  | nil => cases h
  | cons file rest ih =>
    obtain ⟨path, text⟩ := file
    rw [applyToFiles_cons] at h
    obtain here | ⟨text', -, h⟩ := bind_eq_error_iff.1 h
    · split at here
      · cases changed : f.applyToFile config text with
        | ok text' =>
          rw [changed] at here
          cases here
        | error cause =>
          rw [changed] at here
          cases here
          exact ⟨path, cause, rfl⟩
      · cases here
    · obtain there | ⟨rest', -, h⟩ := bind_eq_error_iff.1 h
      · exact ih there
      · cases h

/-- The function that changes nothing. -/
def Builtin.idle : Builtin where
  mutate _ r := (r, false)

namespace Runtime

/-- The runtime that has one function, under this name. -/
def only (name : String) : Runtime := .ofList [(name, .idle)]

theorem get?_only_eq_some_iff {name key : String} {f : Builtin} :
    (only name).get? key = some f ↔ key = name ∧ f = .idle := by
  have distinct : ([(name, Builtin.idle)].map Prod.fst).Nodup := List.pairwise_singleton _ _
  rw [only, Dict.get?_ofList_eq_some_iff distinct, List.mem_singleton, Prod.mk.injEq]

end Runtime

namespace Image

variable {image other : String}

/-- An image runs as another one: both answer the same, and a fault tells the image that was asked for. -/
def RunsAs (image other : String) : Prop :=
  ∀ (runtime : Runtime) (config : Dict String) (files : Bundle),
    runtime.evaluate image config files =
      (runtime.evaluate other config files).mapError (.retold image)

theorem runsAs_of_functionName (same : functionName image = functionName other) :
    RunsAs image other := by
  intro runtime config files
  rw [Runtime.evaluate, Runtime.evaluate, same]
  cases runtime.get? (functionName other) with
  | none => rfl
  | some f =>
    dsimp only
    cases f.required.find? (fun key => !config.contains key) with
    | some key => rfl
    | none =>
      cases applied : f.applyToFiles config files.toList with
      | ok l => rfl
      | error fault =>
        obtain ⟨path, cause, rfl⟩ := Builtin.applyToFiles_error applied
        rfl

/-- **Two images run alike just if they tell the same function.** -/
theorem runsAs_iff : RunsAs image other ↔ functionName image = functionName other := by
  refine ⟨fun alike => ?_, runsAs_of_functionName⟩
  -- the runtime that has nothing but the function of one image runs no image of another function
  have runs : (Runtime.only (functionName image)).evaluate image ∅ ∅ = .ok ∅ := by
    rw [Runtime.evaluate, Runtime.get?_only_eq_some_iff.2 ⟨rfl, rfl⟩]
    rfl
  rw [alike, mapError_eq_ok_iff] at runs
  obtain ⟨f, -, found, -⟩ := Runtime.evaluate_ok runs
  exact (Runtime.get?_only_eq_some_iff.1 found).1.symm

end Image

namespace Config

open Image

/-- **Names of images agree.** The short name of an image and the expanded one tell the same function and run
alike, and an expanded name is not expanded again. A function whose name can be told, and whose tag has no
slash, is told by the name under which a registry publishes it; that name runs as the function's own and is
never expanded; and the short name expands to the one under which the configured registry publishes the
function. -/
theorem image_names_agree (c : Config) (image : String) :
    functionName (c.expandImage image) = functionName image ∧
    c.expandImage (c.expandImage image) = c.expandImage image ∧
    RunsAs (c.expandImage image) image ∧
    ∀ (registry : String) (i : FunctionImage), IsFunctionName i.name → '/' ∉ i.tag.toList →
      functionName (i.reference registry) = i.name ∧
      RunsAs (i.reference registry) i.name ∧
      c.expandImage (i.reference registry) = i.reference registry ∧
      c.expandImage (i.name ++ ":" ++ i.tag) = i.reference c.functionRegistry := by
  have kept := functionName_expand c.functionRegistry image
  refine ⟨kept, expand_expand .., runsAs_iff.2 kept, fun registry i proper slashless => ?_⟩
  have told : functionName (i.reference registry) = i.name :=
    (functionName_published_iff slashless).2 proper
  have own : functionName i.name = i.name := functionName_eq_self_iff.2 proper
  have short : '/' ∉ i.name.toList ∧ '/' ∉ i.tag.toList := ⟨proper.1, slashless⟩
  exact ⟨told, runsAs_iff.2 (told.trans own.symm), expand_published .., expand_short_iff.2 short⟩

/-- The registry has a port and slashes at its end, and the tag has a digest behind it. -/
theorem image_names_agree_on_port :
    IsFunctionName "set-labels" ∧ '/' ∉ "v1@sha256:0a".toList ∧
    functionName "localhost:5000/fn/set-labels:v1@sha256:0a" = "set-labels" ∧
    RunsAs "localhost:5000/fn/set-labels:v1@sha256:0a" "set-labels" ∧
    expandImage { functionRegistry := "host/acme//" } "localhost:5000/fn/set-labels:v1@sha256:0a" =
      "localhost:5000/fn/set-labels:v1@sha256:0a" ∧
    expandImage { functionRegistry := "host/acme//" } "set-labels:v1@sha256:0a" =
      "host/acme/set-labels:v1@sha256:0a" := by
  let c : Config := { functionRegistry := "host/acme//" }
  let i : FunctionImage := { name := "set-labels", tag := "v1@sha256:0a" }
  have proper : IsFunctionName i.name := by decide +kernel
  have slashless : '/' ∉ i.tag.toList := by decide +kernel
  have listed : i.reference "localhost:5000/fn//" = "localhost:5000/fn/set-labels:v1@sha256:0a" := by
    decide +kernel
  have configured : i.reference c.functionRegistry = "host/acme/set-labels:v1@sha256:0a" := by
    decide +kernel
  obtain ⟨-, -, -, published⟩ := image_names_agree c "set-labels"
  have agree := published "localhost:5000/fn//" i proper slashless
  rw [listed, configured] at agree
  exact ⟨proper, slashless, agree⟩

end Config

end PackageDepot
