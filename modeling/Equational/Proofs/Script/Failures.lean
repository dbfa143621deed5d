import Equational.Proofs.Script.Steps

namespace Equational.Session

variable {s s' : Session} {c : Command} {o : Outcome}

theorem execute_eq_ok_iff : s.execute c = (.ok o, s') ↔ s.Executes c o s' := by
  constructor
  · exact executes_of_execute
  · intro h
    cases h with
    | theory hθ => rw [execute, selectTheory, Library.get_eq_ok_iff.mpr hθ]
    | law hs => rw [execute, addLaw, hs]
    | prove hs hθ =>
      rw [execute, startProof, hs]
      simp only [Library.get_eq_ok_iff.mpr hθ]
    | step hs hθ hπ hj =>
      have hadd := Proof.add_eq_ok_iff.mpr ⟨hj, rfl⟩
      rw [execute, addStep, hs]
      simp only [Library.get_eq_ok_iff.mpr hθ, hπ, hadd]

/-- Why a command has failed. -/
def error? : Except ScriptError Outcome → Option ScriptError
  | .error e => some e
  | .ok _ => none

theorem error?_eq_some_iff {r : Except ScriptError Outcome} {e : ScriptError} :
    error? r = some e ↔ r = .error e := by
  cases r <;> simp [error?]

/-- What a command can fail for. Lines are read before, so no failure is one of reading. -/
theorem error_cases {e : ScriptError} (h : (s.execute c).1 = .error e) :
    e = .noTheory ∨ e = .noProof ∨ (∃ e', e = .library e') ∨ ∃ e', e = .proof e' := by
  cases c with
  | theory name =>
    rw [execute, selectTheory] at h
    split at h <;> cases h
    exact .inr (.inr (.inl ⟨_, rfl⟩))
  | law l =>
    rw [execute, addLaw] at h
    split at h <;> cases h
    exact .inl rfl
  | prove lhs rhs =>
    rw [execute, startProof] at h
    split at h
    · cases h
      exact .inl rfl
    · split at h <;> cases h
      exact .inr (.inr (.inl ⟨_, rfl⟩))
  | step rule expression =>
    rw [execute, addStep] at h
    split at h
    · cases h
      exact .inl rfl
    split at h
    · cases h
      exact .inr (.inr (.inl ⟨_, rfl⟩))
    split at h
    · cases h
      exact .inr (.inl rfl)
    split at h <;> cases h
    exact .inr (.inr (.inr ⟨_, rfl⟩))

/-- The commands of a run that succeed. -/
def succeeding (s : Session) : List Command → List Command
  | [] => []
  | c :: cs =>
    match s.execute c with
    | (.ok _, s') => c :: s'.succeeding cs
    | (.error _, _) => s.succeeding cs

/-- The failing commands may be left out of a run: what the others do is the same, and so is the
session at the end. -/
theorem executeAll_succeeding (s : Session) (cs : List Command) :
    s.executeAll (s.succeeding cs) =
      ((s.executeAll cs).1.filter (·.isOk), (s.executeAll cs).2) := by
  induction cs generalizing s with
  | nil => rfl
  | cons c cs ih =>
    rcases hx : s.execute c with ⟨r, s'⟩
    cases r with
    | ok o =>
      simp only [succeeding, executeAll, hx, ih s', List.filter_cons]
      rfl
    | error e =>
      obtain rfl := eq_of_execute_error hx
      simp only [succeeding, executeAll, hx, ih s', List.filter_cons]
      rfl

/-- A command that fails leaves the session as it was, with its library, laws, proof and count of
proofs. It fails only if it cannot succeed in any way, and what follows goes on as if the command
had not been there. -/
theorem unchanged_of_failure {e : ScriptError} (h : (s.execute c).1 = .error e) :
    (s.execute c).2 = s ∧
    (e = .noTheory ∨ e = .noProof ∨ (∃ e', e = .library e') ∨ ∃ e', e = .proof e') ∧
    (∀ o s', ¬ s.Executes c o s') ∧
    ∀ cs, s.executeAll (c :: cs) = (.error e :: (s.executeAll cs).1, (s.executeAll cs).2) := by
  rcases hx : s.execute c with ⟨r, s'⟩
  obtain rfl : r = .error e := by
    rw [hx] at h
    exact h
  obtain rfl : s' = s := eq_of_execute_error hx
  refine ⟨rfl, error_cases h, fun o s'' hs => ?_, fun cs => ?_⟩
  · have hok := execute_eq_ok_iff.mpr hs
    rw [hx] at hok
    cases hok
  · rw [executeAll, hx]

/-- In the middle of a proof by a law, a step that the law does not give, and a theory that there is
not. -/
theorem unchanged_of_failure_of_absorption :
    let cs : List Command := [.theory "set_theory",
      .law ⟨"Absorption", none, "(x ∪ y) ∩ x", "x", none⟩, .prove "(A ∪ B) ∩ A" "B",
      .step "Absorption" "A"]
    ∃ L s, Library.ofPresentations Library.shipped = .ok L ∧ ((fresh L).executeAll cs).2 = s ∧
      s.proof.any (·.steps.length == 1) = true ∧
      (s.execute (.step "Absorption" "B")).1 = .error (.proof (.step .doesNotApply)) ∧
      (s.execute (.step "Absorption" "B")).2 = s ∧
      (s.execute (.theory "number_theory")).1 = .error (.library (.notFound "number_theory")) ∧
      (s.execute (.theory "number_theory")).2 = s := by
  intro cs
  obtain ⟨L, hL, hrun⟩ := Library.exists_shipped_of_any (f := fun L =>
      let s := ((fresh L).executeAll cs).2
      s.proof.any (·.steps.length == 1) &&
        error? (s.execute (.step "Absorption" "B")).1 == some (.proof (.step .doesNotApply)) &&
        error? (s.execute (.theory "number_theory")).1 ==
          some (.library (.notFound "number_theory"))) (by decide +kernel)
  simp only [Bool.and_eq_true, beq_iff_eq, error?_eq_some_iff] at hrun
  obtain ⟨⟨hproof, hstep⟩, htheory⟩ := hrun
  exact ⟨L, _, hL, rfl, hproof, hstep, (unchanged_of_failure hstep).1, htheory,
    (unchanged_of_failure htheory).1⟩

end Equational.Session
