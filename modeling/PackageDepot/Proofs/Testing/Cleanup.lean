import PackageDepot.Testing.Cleanup

/-!
# How release actions are carried out

`Cleanup.Runs` says that release actions are carried out one after the other, each in the state that the one
before it left, and how each of them ends. If all of them can be prepared, `runAll` does just that: none is
left, and what is reported are the failures in the order of the actions. The first action that panics while it
is prepared ends the work, and those behind it stay where they are (`releases`). That each action is
called upon once is read off a stack whose actions note when they are prepared and when they are carried out
(`Cleanup.noted`).
-/

namespace PackageDepot.Testing

variable {σ : Type}

/-- An action is prepared in a state and carried out; it ends in this way, and leaves this state. -/
def Release.Ends (r : Release σ) (s : σ) (e : Ending) (t : σ) : Prop :=
  ∃ run u, r.prepare s = (.ok run, u) ∧ run u = (e, t)

/-- An action is prepared and carried out, or panics while it is prepared. -/
theorem Release.ends_or_panics (r : Release σ) (s : σ) :
    (∃ e t, r.Ends s e t) ∨ ∃ p t, r.prepare s = (.error p, t) := by
  match h : r.prepare s with
  | (.ok run, u) => exact .inl ⟨(run u).1, (run u).2, run, u, h, rfl⟩
  | (.error p, t) => exact .inr ⟨p, t, rfl⟩

/-- There is something to report about all endings but the good one. -/
theorem Release.failure?_isSome_iff {label : String} {e : Ending} :
    (Release.failure? label e).isSome = true ↔ e ≠ .passed := by
  cases e with
  | passed => exact ⟨nofun, fun h => (h rfl).elim⟩
  | failed chain => exact ⟨fun _ => nofun, fun _ => rfl⟩
  | panicked p => exact ⟨fun _ => nofun, fun _ => rfl⟩

namespace Cleanup

/-- The actions are carried out one after the other. The labels tell how each one ends. -/
inductive Runs : Cleanup σ → σ → List (String × Ending) → σ → Prop
  | nil (s : σ) : Runs [] s [] s
  | cons {r : Release σ} {c : Cleanup σ} {s u t : σ} {e : Ending} {es : List (String × Ending)}
    (first : r.Ends s e u) (rest : Runs c u es t) : Runs (r :: c) s ((r.label, e) :: es) t

/-- What is reported about the actions, in their order. -/
def failureLines (es : List (String × Ending)) : List String :=
  es.filterMap fun e => Release.failure? e.1 e.2

theorem Runs.labels {c : Cleanup σ} {s t : σ} {es : List (String × Ending)} (h : c.Runs s es t) :
    es.map Prod.fst = c.map Release.label := by
  induction h with
  | nil s => rfl
  | cons first rest ih => rw [List.map_cons, List.map_cons, ih]

/-- All actions are carried out, or there is a first one that panics while it is prepared. -/
theorem runs_or_panics (c : Cleanup σ) (s : σ) :
    (∃ es t, c.Runs s es t) ∨ ∃ done r left es u p t,
      c = done ++ r :: left ∧ Runs done s es u ∧ r.prepare u = (.error p, t) := by
  induction c generalizing s with
  | nil => exact .inl ⟨[], s, .nil s⟩
  | cons r c ih =>
    obtain ⟨e, u, first⟩ | ⟨p, t, panics⟩ := r.ends_or_panics s
    · obtain ⟨es, t, rest⟩ | ⟨done, q, left, es, v, p, t, rfl, rest, panics⟩ := ih u
      · exact .inl ⟨_, t, .cons first rest⟩
      · exact .inr ⟨r :: done, q, left, _, v, p, t, rfl, .cons first rest, panics⟩
    · exact .inr ⟨[], r, c, [], s, p, t, rfl, .nil s, panics⟩

/-- Actions that never panic while they are prepared are all carried out. -/
theorem runs_of_prepared (c : Cleanup σ)
    (ready : ∀ r ∈ c, ∀ u, ∃ run t, r.prepare u = (.ok run, t)) (s : σ) : ∃ es t, c.Runs s es t := by
  obtain all | ⟨done, r, left, es, u, p, t, rfl, -, panics⟩ := c.runs_or_panics s
  · exact all
  · obtain ⟨run, v, prepared⟩ := ready r (by simp) u
    rw [prepared] at panics
    cases panics

/-- What is reported first stands in front of what is reported about the other actions. -/
theorem runAll_append {done : Cleanup σ} {s u : σ} {es : List (String × Ending)}
    (h : Runs done s es u) (left : Cleanup σ) : (done ++ left).runAll s =
      (((left.runAll u).1.1.map (failureLines es ++ ·), (left.runAll u).1.2), (left.runAll u).2) := by
  induction h with
  | nil s =>
    have same : (left.runAll s).1.1.map (failureLines [] ++ ·) = (left.runAll s).1.1 := by
      cases (left.runAll s).1.1 with
      | ok failures => rfl
      | error p => rfl
    rw [same]
    rfl
  | @cons r c s v u e es first rest ih =>
    obtain ⟨run, w, prepared, ran⟩ := first
    rw [List.cons_append, runAll, prepared]
    simp only [ran, ih]
    cases (left.runAll u).1.1 with
    | ok failures =>
      have lines : failureLines ((r.label, e) :: es) =
          (Release.failure? r.label e).toList ++ failureLines es := by
        rw [failureLines, List.filterMap_cons]
        cases Release.failure? r.label e with
        | none => rfl
        | some line => rfl
      simp only [Except.map, lines, List.append_assoc]
    | error p => rfl

/-- If all actions are carried out, the failures are reported and nothing is left. -/
theorem runAll_of_runs {c : Cleanup σ} {s t : σ} {es : List (String × Ending)} (h : c.Runs s es t) :
    c.runAll s = ((.ok (failureLines es), []), t) := by
  have all := runAll_append h []
  rw [List.append_nil] at all
  rw [all, runAll]
  simp only [Except.map, List.append_nil]

/-- A panic that is not caught ends the work. -/
theorem runAll_of_panic {done : Cleanup σ} {r : Release σ} {s u t : σ} {p : Panic}
    {es : List (String × Ending)} (h : Runs done s es u) (panics : r.prepare u = (.error p, t))
    (left : Cleanup σ) : (done ++ r :: left).runAll s = ((.error p, left), t) := by
  rw [runAll_append h (r :: left), runAll, panics]
  rfl

/-! ## Notes of what is called -/

/-- A part of an action is called. The action is told by how many were registered before it. -/
inductive Note
  | prepared (action : Nat)
  | carriedOut (action : Nat)
  deriving DecidableEq, Repr

end Cleanup

/-- The action, noting when it is prepared and when it is carried out. -/
def Release.noted (r : Release σ) (n : Nat) : Release (σ × List Cleanup.Note) where
  label := r.label
  prepare x :=
    let (prepared, s) := r.prepare x.1
    (prepared.map fun run y =>
      let (e, t) := run y.1
      (e, (t, y.2 ++ [.carriedOut n])), (s, x.2 ++ [.prepared n]))

theorem Release.Ends.noted {r : Release σ} {s t : σ} {e : Ending} (h : r.Ends s e t) (n : Nat)
    (notes : List Cleanup.Note) :
    (r.noted n).Ends (s, notes) e (t, notes ++ [.prepared n, .carriedOut n]) := by
  obtain ⟨run, u, prepared, ran⟩ := h
  refine ⟨fun y => ((run y.1).1, (run y.1).2, y.2 ++ [.carriedOut n]), (u, notes ++ [.prepared n]),
    ?_, ?_⟩
  · simp only [Release.noted, prepared]
    rfl
  · simp only [ran, List.append_assoc]
    rfl

theorem Release.noted_panics {r : Release σ} {s t : σ} {p : Panic} (h : r.prepare s = (.error p, t))
    (n : Nat) (notes : List Cleanup.Note) :
    (r.noted n).prepare (s, notes) = (.error p, t, notes ++ [.prepared n]) := by
  simp only [Release.noted, h]
  rfl

namespace Cleanup

/-- The actions, noting when they are called. `below` actions were registered before all of them. -/
def noted (below : Nat) : Cleanup σ → Cleanup (σ × List Note)
  | [] => []
  | r :: c => r.noted (below + c.length) :: noted below c

theorem noted_append (below : Nat) (c d : Cleanup σ) :
    noted below (c ++ d) = noted (below + d.length) c ++ noted below d := by
  induction c with
  | nil => rfl
  | cons r c ih =>
    have number : below + (c ++ d).length = below + d.length + c.length := by
      rw [List.length_append]
      omega
    rw [List.cons_append, noted, noted, ih, number, List.cons_append]

/-- The calls of `n` actions, each prepared and then carried out, the last one first. -/
def calls (below n : Nat) : List Note :=
  (List.range' below n).reverse.flatMap fun i => [.prepared i, .carriedOut i]

theorem calls_succ (below n : Nat) :
    calls below (n + 1) = [.prepared (below + n), .carriedOut (below + n)] ++ calls below n := by
  rw [calls, List.range'_1_concat, List.reverse_append, List.reverse_singleton, List.flatMap_append]
  rfl

/-- Actions that note their calls are carried out like the ones that do not. -/
theorem Runs.noted {c : Cleanup σ} {s t : σ} {es : List (String × Ending)} (h : c.Runs s es t)
    (below : Nat) (notes : List Note) :
    (c.noted below).Runs (s, notes) es (t, notes ++ calls below c.length) := by
  induction h generalizing notes with
  | nil s =>
    have none : notes ++ calls below 0 = notes := List.append_nil notes
    rw [List.length_nil, none]
    exact .nil _
  | @cons r c s u t e es first rest ih =>
    rw [List.length_cons, calls_succ, ← List.append_assoc]
    exact .cons (first.noted (below + c.length) notes) (ih _)

/-! ## What comes of release actions -/

/-- What comes of carrying out release actions, begun in a state. -/
structure Released (c : Cleanup σ) (s : σ) : Prop where
  /-- All actions are carried out, or there is a first one that panics while it is prepared. -/
  either : (∃ es t, c.Runs s es t) ∨ ∃ done r left es u p t,
    c = done ++ r :: left ∧ Runs done s es u ∧ r.prepare u = (.error p, t)
  /-- Actions that never panic while they are prepared are all carried out. -/
  prepared : (∀ r ∈ c, ∀ u, ∃ run t, r.prepare u = (.ok run, t)) → ∃ es t, c.Runs s es t
  /-- If all are carried out, each one is prepared once and then carried out once, the one that was
  registered last first. None is left, and the failures are reported in this order. -/
  complete : ∀ es t, c.Runs s es t →
    es.map Prod.fst = c.map Release.label ∧
    c.runAll s = ((.ok (failureLines es), []), t) ∧
    (c.noted 0).runAll (s, []) = ((.ok (failureLines es), []), t, calls 0 c.length)
  /-- There is a failure for each action that did not pass, and for no other. -/
  reported : ∀ label e, (Release.failure? label e).isSome = true ↔ e ≠ .passed
  /-- An action that panics while it is prepared is the last one that is called. The panic is all that comes
  of the work, and what was registered before this action stays registered. -/
  abandoned : ∀ done r left es u p t, c = done ++ r :: left → Runs done s es u →
    r.prepare u = (.error p, t) →
    c.runAll s = ((.error p, left), t) ∧
    (c.noted 0).runAll (s, []) = ((.error p, noted 0 left), t,
      calls (left.length + 1) done.length ++ [.prepared left.length])

/-- **Release actions** are all carried out, last registered first, up to one that panics while it is
prepared. -/
theorem releases (c : Cleanup σ) (s : σ) : Released c s where
  either := c.runs_or_panics s
  prepared ready := c.runs_of_prepared ready s
  complete es t h := by
    have noted := runAll_of_runs (h.noted 0 [])
    rw [List.nil_append] at noted
    exact ⟨h.labels, runAll_of_runs h, noted⟩
  reported _ _ := Release.failure?_isSome_iff
  abandoned done r left es u p t parts h panics := by
    subst parts
    refine ⟨runAll_of_panic h panics left, ?_⟩
    have below : 0 + (r :: left).length = left.length + 1 := by
      rw [List.length_cons]
      omega
    rw [noted_append, below, noted]
    have noted := runAll_of_panic (h.noted (left.length + 1) [])
      (Release.noted_panics panics (0 + left.length) _) (noted 0 left)
    rw [List.nil_append, Nat.zero_add] at noted
    rw [Nat.zero_add]
    exact noted

/-! ## An action that cannot be prepared -/

/-- An action that tells its label when it is carried out. -/
def closing (label : String) : Release (List String) := .of label fun s => (.passed, s ++ [label])

/-- An action that cannot be prepared. -/
def jammed : Release (List String) := ⟨"lock", fun s => (.error ⟨some "poisoned"⟩, s)⟩

/-- **An action that panics while it is prepared leaves another one behind**, which is never called, and
nothing is reported. Where all actions are carried out, what is reported about one of them may be two lines. -/
theorem action_left_behind :
    Cleanup.runAll [closing "socket", jammed, closing "file"] [] =
      ((.error ⟨some "poisoned"⟩, [closing "file"]), ["socket"]) ∧
    (∃ line, Cleanup.runAll [.of "disk" fun s => (.failed ["full\nof logs"], s)] () =
      ((.ok [line], []), ()) ∧ '\n' ∈ line.toList) := by
  refine ⟨rfl, "disk: full\nof logs", ?_, ?_⟩
  · rfl
  · decide

end Cleanup

end PackageDepot.Testing
