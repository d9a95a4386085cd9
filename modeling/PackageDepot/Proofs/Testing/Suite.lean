import Mathlib.Data.List.Forall2
import PackageDepot.Proofs.Testing.Cleanup
import PackageDepot.Testing.Suite

/-!
# How a suite is run

`Course` is what becomes of one case: how the set-up ends, how the case ends if it is run, and how the release
actions end. `Suite.Carries` says how it comes about, and `Suite.Courses` that the selected cases have their
courses one after the other, each begun in a state that is made when the one before it is over. A suite whose
release actions can all be prepared has such courses, and reports them (`runs_selected`). The order in which
things are called is read off a suite whose parts note when they are called (`Suite.noted`).
-/

namespace PackageDepot.Testing

variable {σ : Type}

theorem Ending.error?_isSome_iff {e : Ending} : e.error?.isSome = true ↔ e ≠ .passed := by
  cases e with
  | passed => exact ⟨nofun, fun h => (h rfl).elim⟩
  | failed chain => exact ⟨fun _ => nofun, fun _ => rfl⟩
  | panicked p => exact ⟨fun _ => nofun, fun _ => rfl⟩

/-- What becomes of a case. -/
structure Course (σ : Type) where
  name : String
  /-- The state that was made for the case. -/
  start : σ
  /-- How the set-up ended, if there is one. -/
  setup : Option Ending
  /-- How the case ended, if it was run. -/
  body : Option Ending
  /-- How the release actions ended, in the order in which they were carried out. -/
  released : List (String × Ending)
  /-- The state in the end. -/
  left : σ

namespace Course

/-- Something ended in another way than by passing: the set-up, or the case. -/
def Bad (x : Course σ) : Prop := ∃ e, (x.setup = some e ∨ x.body = some e) ∧ e ≠ .passed

/-- What is reported about a case: the error of the case, or that of the set-up if the case was not run. -/
def report (x : Course σ) : CaseReport where
  name := x.name
  error := (x.body.or x.setup).bind Ending.error?
  cleanupFailures := Cleanup.failureLines x.released

/-- A part of a suite that is called. -/
inductive Part
  | fixture
  | setup
  | body (name : String)
  | release (label : String)
  deriving DecidableEq, Repr

/-- The parts that are called for a case, in order. -/
def calls (x : Course σ) : List Part :=
  .fixture :: (x.setup.map fun _ => .setup).toList ++ (x.body.map fun _ => .body x.name).toList ++
    x.released.map fun r => .release r.1

end Course

namespace Suite

variable {s : Suite σ} {makeState : List σ → σ} {before : List σ} {cases : List (String × Case σ)}
  {xs : List (Course σ)} {c : String × Case σ} {x : Course σ}

/-- How a case of a suite takes its course. The set-up comes first, and unless it passes the case is not run.
The release actions that the case registered are carried out in the state that it leaves, whichever way it
ended. -/
inductive Carries (s : Suite σ) (c : String × Case σ) : Course σ → Prop
  | plain {start t : σ} {e : Ending} {y : CaseState σ} {es : List (String × Ending)}
    (absent : s.setup = none) (body : c.2 { state := start } = (e, y))
    (released : y.cleanup.Runs y.state es t) : Carries s c ⟨c.1, start, none, some e, es, t⟩
  | ready {start u t : σ} {setup : σ → Ending × σ} {e : Ending} {y : CaseState σ}
    {es : List (String × Ending)} (present : s.setup = some setup) (passed : setup start = (.passed, u))
    (body : c.2 { state := u } = (e, y)) (released : y.cleanup.Runs y.state es t) :
    Carries s c ⟨c.1, start, some .passed, some e, es, t⟩
  | refused {start t : σ} {setup : σ → Ending × σ} {e : Ending} (present : s.setup = some setup)
    (ended : setup start = (e, t)) (bad : e ≠ .passed) : Carries s c ⟨c.1, start, some e, none, [], t⟩

/-- Cases take their courses one after the other. The state of each one is made when those before it are
over. -/
inductive Courses (s : Suite σ) (makeState : List σ → σ) :
    List σ → List (String × Case σ) → List (Course σ) → Prop
  | nil (before : List σ) : Courses s makeState before [] []
  | cons {before : List σ} {c : String × Case σ} {cases : List (String × Case σ)} {x : Course σ}
    {xs : List (Course σ)} (first : s.Carries c x) (made : x.start = makeState before)
    (rest : Courses s makeState (before ++ [x.left]) cases xs) :
    Courses s makeState before (c :: cases) (x :: xs)

/-- Release actions that the selected cases register never panic while they are prepared. -/
def Prepared (s : Suite σ) : Prop := ∀ c ∈ s.selected, ∀ u, ∀ r ∈ (c.2 { state := u }).2.cleanup,
  ∀ v, ∃ run t, r.prepare v = (.ok run, t)

/-! ## One case -/

theorem Carries.name (h : s.Carries c x) : x.name = c.1 := by
  cases h with
  | plain absent body released => rfl
  | ready present passed body released => rfl
  | refused present ended bad => rfl

/-- The report has an error if the set-up or the case failed or panicked, and only then. -/
theorem Carries.error_iff (h : s.Carries c x) : x.report.error.isSome = true ↔ x.Bad := by
  cases h with
  | plain absent body released => simp [Course.report, Course.Bad, Ending.error?_isSome_iff]
  | ready present passed body released => simp [Course.report, Course.Bad, Ending.error?_isSome_iff]
  | refused present ended bad => simp [Course.report, Course.Bad, Ending.error?_isSome_iff]

/-- A case takes a course if its release actions can be prepared. -/
theorem exists_carries (s : Suite σ) (c : String × Case σ)
    (ready : ∀ u, ∀ r ∈ (c.2 { state := u }).2.cleanup, ∀ v, ∃ run t, r.prepare v = (.ok run, t))
    (start : σ) : ∃ x, s.Carries c x ∧ x.start = start := by
  have releases (u : σ) := (c.2 { state := u }).2.cleanup.runs_of_prepared (ready u)
  cases setup : s.setup with
  | none =>
    obtain ⟨es, t, released⟩ := releases start (c.2 { state := start }).2.state
    exact ⟨_, .plain setup rfl released, rfl⟩
  | some f =>
    by_cases passed : (f start).1 = .passed
    · obtain ⟨es, t, released⟩ := releases (f start).2 (c.2 { state := (f start).2 }).2.state
      exact ⟨_, .ready setup (Prod.ext passed rfl) rfl released, rfl⟩
    · exact ⟨_, .refused setup rfl passed, rfl⟩

theorem runBody_refused {setup : σ → Ending × σ} {start t : σ} {e : Ending} (case : Case σ)
    (present : s.setup = some setup) (ended : setup start = (e, t)) (bad : e ≠ .passed) :
    s.runBody case start = (e, { state := t }) := by
  cases e with
  | passed => exact (bad rfl).elim
  | failed chain => simp only [runBody, present, ended]
  | panicked p => simp only [runBody, present, ended]

/-- A case that takes a course is reported so. -/
theorem Carries.runOne (h : s.Carries c x) : s.runOne c.1 c.2 x.start = (.ok x.report, x.left) := by
  cases h with
  | plain absent body released =>
    simp only [Suite.runOne, runBody, absent, body, Cleanup.runAll_of_runs released]
    rfl
  | ready present passed body released =>
    simp only [Suite.runOne, runBody, present, passed, body, Cleanup.runAll_of_runs released]
    rfl
  | refused present ended bad =>
    simp only [Suite.runOne, runBody_refused c.2 present ended bad, Cleanup.runAll]
    rfl

/-! ## All cases -/

theorem exists_courses (s : Suite σ) (makeState : List σ → σ) (before : List σ)
    (ready : ∀ c ∈ cases, ∀ u, ∀ r ∈ (c.2 { state := u }).2.cleanup,
      ∀ v, ∃ run t, r.prepare v = (.ok run, t)) : ∃ xs, s.Courses makeState before cases xs := by
  induction cases generalizing before with
  | nil => exact ⟨[], .nil before⟩
  | cons c rest ih =>
    obtain ⟨x, first, made⟩ := s.exists_carries c (ready c List.mem_cons_self) (makeState before)
    obtain ⟨xs, others⟩ := ih (before ++ [x.left]) fun c' h => ready c' (List.mem_cons_of_mem c h)
    exact ⟨x :: xs, .cons first made others⟩

/-- Cases that take their courses are reported so. -/
theorem Courses.runCases (h : s.Courses makeState before cases xs) :
    s.runCases makeState before cases = .ok (xs.map fun x => (x.report, x.left)) := by
  induction h with
  | nil before => rfl
  | @cons before c cases x xs first made rest ih =>
    obtain ⟨name, case⟩ := c
    rw [Suite.runCases, ← made, first.runOne]
    simp only [ih]
    rfl

theorem Courses.run (h : s.Courses makeState [] s.selected xs) :
    s.run makeState = .ok (⟨s.name, xs.map Course.report⟩, xs.map Course.left) := by
  rw [Suite.run, h.runCases]
  simp only [bind, Except.bind, List.map_map]
  rfl

/-- There is one course for each case, in order. -/
theorem Courses.carries (h : s.Courses makeState before cases xs) :
    List.Forall₂ s.Carries cases xs := by
  induction h with
  | nil before => exact .nil
  | cons first made rest ih => exact .cons first ih

theorem Courses.exists_case (h : s.Courses makeState before cases xs) (there : x ∈ xs) :
    ∃ c, s.Carries c x := by
  induction h with
  | nil before => cases there
  | @cons before c cases y xs first made rest ih =>
    obtain rfl | later := List.mem_cons.1 there
    · exact ⟨c, first⟩
    · exact ih later

theorem Courses.names (h : s.Courses makeState before cases xs) :
    xs.map Course.name = cases.map Prod.fst := by
  induction h with
  | nil before => rfl
  | cons first made rest ih => rw [List.map_cons, List.map_cons, first.name, ih]

/-- The state of a case is made when the cases before it are over. -/
theorem Courses.start (h : s.Courses makeState before cases xs) {i : Nat} (there : xs[i]? = some x) :
    x.start = makeState (before ++ (xs.take i).map Course.left) := by
  induction h generalizing i with
  | nil before => cases there
  | cons first made rest ih =>
    cases i with
    | zero =>
      cases there
      rw [made, List.take_zero, List.map_nil, List.append_nil]
    | succ i => rw [ih there, List.take_succ_cons, List.map_cons, List.append_assoc, List.singleton_append]

end Suite

/-- There is no error if the set-up and the case passed, and no failure if the release actions did. -/
theorem Cleanup.failureLines_eq_nil_iff {es : List (String × Ending)} :
    failureLines es = [] ↔ ∀ e ∈ es, e.2 = .passed := by
  rw [failureLines, List.filterMap_eq_nil_iff]
  refine forall₂_congr fun e _ => ?_
  rw [← Option.not_isSome_iff_eq_none, Release.failure?_isSome_iff]
  exact not_not

/-- The suite went well if nothing is reported about any case. -/
theorem SuiteReport.result_ok_iff {r : SuiteReport} :
    r.result = .ok () ↔ ∀ c ∈ r.cases, c.error = none ∧ c.cleanupFailures = [] := by
  have well : r.failures.isEmpty = true ↔ ∀ c ∈ r.cases, c.error = none ∧ c.cleanupFailures = [] := by
    simp [failures, CaseReport.passed]
  rw [← well, result]
  cases r.failures.isEmpty with
  | true => exact ⟨fun _ => rfl, fun _ => rfl⟩
  | false => exact ⟨nofun, nofun⟩

/-! ## Notes of what is called -/

open Course (Part)

/-- The action, noting when it is carried out. -/
def Release.logged (r : Release σ) : Release (σ × List Part) where
  label := r.label
  prepare x :=
    let (prepared, s) := r.prepare x.1
    (prepared.map fun run y =>
      let (e, t) := run y.1
      (e, (t, y.2 ++ [.release r.label])), (s, x.2))

theorem Release.Ends.logged {r : Release σ} {s t : σ} {e : Ending} (h : r.Ends s e t)
    (log : List Part) : r.logged.Ends (s, log) e (t, log ++ [.release r.label]) := by
  obtain ⟨run, u, prepared, ran⟩ := h
  refine ⟨fun y => ((run y.1).1, (run y.1).2, y.2 ++ [.release r.label]), (u, log), ?_, ?_⟩
  · simp only [Release.logged, prepared]
    rfl
  · simp only [ran]

/-- Actions that note when they are carried out are carried out like the ones that do not. -/
theorem Cleanup.Runs.logged {c : Cleanup σ} {s t : σ} {es : List (String × Ending)} (h : c.Runs s es t)
    (log : List Part) : Cleanup.Runs (c.map Release.logged) (s, log) es
      (t, log ++ es.map fun e => .release e.1) := by
  induction h generalizing log with
  | nil s =>
    rw [List.map_nil, List.map_nil, List.append_nil]
    exact .nil _
  | @cons r c s u t e es first rest ih =>
    have noted : log ++ ((r.label, e) :: es).map (fun e => Part.release e.1) =
        (log ++ [.release r.label]) ++ es.map fun e => .release e.1 := by
      rw [List.append_assoc]
      rfl
    rw [noted]
    exact .cons (first.logged log) (ih _)

/-- The set-up, noting when it is called. -/
def Suite.loggedSetup (setup : σ → Ending × σ) (x : σ × List Part) : Ending × (σ × List Part) :=
  let (e, t) := setup x.1
  (e, (t, x.2 ++ [.setup]))

/-- The case, noting when it is called, and so do the release actions that it registers. A suite calls its
cases with none registered. -/
def Suite.loggedCase (c : String × Case σ) : String × Case (σ × List Part) :=
  (c.1, fun x =>
    let (e, y) := c.2 { state := x.state.1 }
    (e, { state := (y.state, x.state.2 ++ [.body c.1]), cleanup := y.cleanup.map Release.logged }))

/-- The suite, noting what it calls. -/
def Suite.logged (s : Suite σ) : Suite (σ × List Part) where
  name := s.name
  setup := s.setup.map loggedSetup
  filter := s.filter
  cases := s.cases.map loggedCase

/-- The states for the cases of a suite that notes what it calls: the notes go on from case to case. -/
def Suite.logging (makeState : List σ → σ) (before : List (σ × List Part)) : σ × List Part :=
  (makeState (before.map Prod.fst), (before.getLast?.elim [] Prod.snd) ++ [.fixture])

/-- The course with the notes from before it and its own. -/
def Course.logged (log : List Part) (x : Course σ) : Course (σ × List Part) where
  name := x.name
  start := (x.start, log ++ [.fixture])
  setup := x.setup
  body := x.body
  released := x.released
  left := (x.left, log ++ x.calls)

/-- Courses one after the other, with notes. -/
def Course.loggedAll : List Part → List (Course σ) → List (Course (σ × List Part))
  | _, [] => []
  | log, x :: xs => x.logged log :: loggedAll (log ++ x.calls) xs

namespace Suite

variable {s : Suite σ} {makeState : List σ → σ} {before : List σ} {cases : List (String × Case σ)}
  {xs : List (Course σ)} {c : String × Case σ} {x : Course σ}

theorem selected_logged (s : Suite σ) : s.logged.selected = s.selected.map loggedCase := by
  rw [selected, selected, logged, List.filter_map]
  rfl

theorem setup_logged {setup : σ → Ending × σ} {start t : σ} {e : Ending}
    (ended : setup start = (e, t)) (log : List Part) :
    loggedSetup setup (start, log) = (e, (t, log ++ [.setup])) := by
  simp only [loggedSetup, ended]

theorem case_logged {start : σ} {e : Ending} {y : CaseState σ} (body : c.2 { state := start } = (e, y))
    (log : List Part) : (loggedCase c).2 { state := (start, log) } =
      (e, { state := (y.state, log ++ [.body c.1]), cleanup := y.cleanup.map Release.logged }) := by
  simp only [loggedCase, body]

/-- Notes change nothing about the course of a case, and they tell what is called. -/
theorem Carries.logged (h : s.Carries c x) (log : List Part) :
    s.logged.Carries (loggedCase c) (x.logged log) := by
  cases h with
  | @plain start t e y es absent body released =>
    have all : log ++ Course.calls ⟨c.1, start, none, some e, es, t⟩ =
        log ++ [.fixture] ++ [.body c.1] ++ es.map fun e => .release e.1 := by simp [Course.calls]
    rw [Course.logged, all]
    exact .plain (by rw [Suite.logged, absent]; rfl) (case_logged body _) (released.logged _)
  | @ready start u t setup e y es present passed body released =>
    have all : log ++ Course.calls ⟨c.1, start, some .passed, some e, es, t⟩ =
        log ++ [.fixture] ++ [.setup] ++ [.body c.1] ++ es.map fun e => .release e.1 := by
      simp [Course.calls]
    rw [Course.logged, all]
    exact .ready (by rw [Suite.logged, present]; rfl) (setup_logged passed _) (case_logged body _)
      (released.logged _)
  | @refused start t setup e present ended bad =>
    have all : log ++ Course.calls ⟨c.1, start, some e, none, [], t⟩ = log ++ [.fixture] ++ [.setup] := by
      simp [Course.calls]
    rw [Course.logged, all]
    exact .refused (by rw [Suite.logged, present]; rfl) (setup_logged ended _) bad

theorem Courses.logged (h : s.Courses makeState before cases xs) {before' : List (σ × List Part)}
    {log : List Part} (states : before'.map Prod.fst = before)
    (noted : before'.getLast?.elim [] Prod.snd = log) :
    s.logged.Courses (logging makeState) before' (cases.map loggedCase) (Course.loggedAll log xs) := by
  induction h generalizing before' log with
  | nil before => exact .nil before'
  | cons first made rest ih =>
    refine .cons (first.logged log) ?_ (ih ?_ ?_)
    · rw [logging, states, noted, ← made]
      rfl
    · rw [List.map_append, states]
      rfl
    · rw [List.getLast?_concat]
      rfl

end Suite

namespace Course

variable {log : List Part} {xs : List (Course σ)} {x : Course σ}

theorem report_loggedAll (log : List Part) (xs : List (Course σ)) :
    (loggedAll log xs).map report = xs.map report := by
  induction xs generalizing log with
  | nil => rfl
  | cons x xs ih => rw [loggedAll, List.map_cons, List.map_cons, ih, logged, report, report]

theorem length_loggedAll (log : List Part) (xs : List (Course σ)) :
    (loggedAll log xs).length = xs.length := by
  simpa using congrArg List.length (report_loggedAll log xs)

/-- The notes after a case are those of all cases up to it. -/
theorem left_loggedAll {i : Nat} (there : xs[i]? = some x) :
    ((loggedAll log xs).map left)[i]? = some (x.left, log ++ (xs.take (i + 1)).flatMap calls) := by
  induction xs generalizing log i with
  | nil => cases there
  | cons y ys ih =>
    cases i with
    | zero =>
      cases there
      simp [loggedAll, logged]
    | succ i =>
      rw [loggedAll, List.map_cons, List.getElem?_cons_succ, ih there, List.take_succ_cons,
        List.flatMap_cons, List.append_assoc]

end Course

/-! ## What comes of a suite -/

namespace Suite

/-- What comes of running a suite whose cases take these courses. -/
structure Ran (s : Suite σ) (makeState : List σ → σ) (xs : List (Course σ)) : Prop where
  /-- Each selected case takes its course, and no other one does. -/
  carries : List.Forall₂ s.Carries s.selected xs
  /-- The state of a case is made when the cases before it are over, with their release actions. -/
  starts : ∀ i x, xs[i]? = some x → x.start = makeState ((xs.take i).map Course.left)
  /-- The suite comes to its end and reports the courses, with the states that they leave. -/
  run : s.run makeState = .ok (⟨s.name, xs.map Course.report⟩, xs.map Course.left)
  /-- There is one report for each name that is selected, in order. -/
  names : (xs.map Course.report).map CaseReport.name = s.caseNames
  /-- What is called until the end of a case: for each case up to it, in order, its state is made, the set-up
  is called, the case itself if the set-up passed, and then the release actions. -/
  calls : ∃ states, s.logged.run (logging makeState) = .ok (⟨s.name, xs.map Course.report⟩, states) ∧
    states.length = xs.length ∧ ∀ i x, xs[i]? = some x →
      states[i]? = some (x.left, (xs.take (i + 1)).flatMap Course.calls)
  /-- A report has an error if the set-up or the case failed or panicked, and a failure for each release
  action that did. -/
  reports : ∀ x ∈ xs, (x.report.error.isSome = true ↔ x.Bad) ∧
    (x.report.cleanupFailures = [] ↔ ∀ r ∈ x.released, r.2 = .passed)
  /-- The suite went well if nothing is reported about any case. -/
  result : (⟨s.name, xs.map Course.report⟩ : SuiteReport).result = .ok () ↔
    ∀ x ∈ xs, x.report.error = none ∧ x.report.cleanupFailures = []

/-- **A suite runs what it selects**, if no release action panics while it is prepared. -/
theorem runs_selected (s : Suite σ) (makeState : List σ → σ) (prepared : s.Prepared) :
    ∃ xs, s.Ran makeState xs := by
  obtain ⟨xs, courses⟩ := s.exists_courses makeState [] prepared
  refine ⟨xs, courses.carries, fun i x there => courses.start there, courses.run, ?_, ?_, ?_, ?_⟩
  · rw [caseNames, ← courses.names, List.map_map]
    rfl
  · have logged : s.logged.Courses (logging makeState) [] s.logged.selected (Course.loggedAll [] xs) := by
      rw [selected_logged]
      exact courses.logged rfl rfl
    refine ⟨(Course.loggedAll [] xs).map Course.left, ?_, ?_, fun i x there => ?_⟩
    · rw [logged.run, Course.report_loggedAll]
      rfl
    · rw [List.length_map, Course.length_loggedAll]
    · rw [Course.left_loggedAll there, List.nil_append]
  · intro x hx
    obtain ⟨c, carries⟩ := courses.exists_case hx
    exact ⟨carries.error_iff, Cleanup.failureLines_eq_nil_iff⟩
  · rw [SuiteReport.result_ok_iff]
    simp

/-! ## A suite with cases of all kinds -/

/-- What tells that it was called. -/
def telling (text : String) (s : List String) : Ending × List String := (.passed, s ++ [text])

/-- Registers a release action and ends. -/
def registering (r : Release (List String)) (e : Ending) : Case (List String) := fun x =>
  (e, { x with cleanup := x.cleanup.push r })

/-- A suite whose cases fail, panic and pass. One name is there twice, and one is not selected. -/
def mixed : Suite (List String) where
  name := "mixed"
  setup := some (telling "ready")
  filter := some "e"
  cases :=
    [("fetch", registering (.of "disk" (telling "freed")) (.failed ["offline"])),
      ("run", fun x => (.passed, x)),
      ("render", fun x => (.panicked ⟨some "late"⟩, { x with state := x.state ++ ["begun"] })),
      ("fetch", registering (.of "disk" fun s => (.failed ["full"], s)) .passed)]

theorem mixed_prepared : mixed.Prepared := by
  intro c selected u r registered v
  have there := (List.mem_filter.1 selected).1
  simp only [mixed, List.mem_cons, List.not_mem_nil, or_false] at there
  obtain rfl | rfl | rfl | rfl := there
  · obtain rfl := List.mem_singleton.1 registered
    exact ⟨_, _, rfl⟩
  · cases registered
  · cases registered
  · obtain rfl := List.mem_singleton.1 registered
    exact ⟨_, _, rfl⟩

theorem runs_selected_mixed :
    mixed.Prepared ∧ ∃ xs, mixed.Ran (fun before => before.getLast?.getD []) xs :=
  ⟨mixed_prepared, runs_selected mixed _ mixed_prepared⟩

example : mixed.run (fun before => before.getLast?.getD []) = .ok (⟨"mixed", [
    ⟨"fetch", some "offline", []⟩, ⟨"render", some "panicked: late", []⟩,
    ⟨"fetch", none, ["disk: full"]⟩]⟩, [["ready", "freed"], ["ready", "freed", "ready", "begun"],
    ["ready", "freed", "ready", "begun", "ready"]]) := by
  rfl

end Suite

end PackageDepot.Testing
