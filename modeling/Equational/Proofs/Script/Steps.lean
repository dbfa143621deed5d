import Equational.Proofs.Proof.Justified
import Equational.Proofs.Theory.Libraries
import Equational.Script.Session

namespace Equational

/-- The proof that a command hands back. -/
def Outcome.ended? : Outcome → Option Proof
  | .theorySelected π => π
  | .proofStarted π => π
  | _ => none

namespace Session

/-- The command succeeds in the session with the outcome, and leads to the other session. -/
inductive Executes (s : Session) : Command → Outcome → Session → Prop
  | theory {name : String} {θ : Theory} (hθ : s.library.get? name = some θ) :
    Executes s (.theory name) (.theorySelected s.proof)
      { s with
        library := s.library.put name θ.clear
        selected := some name
        laws := []
        proof := none }
  | law {l : Law} {name : String} (hs : s.selected = some name) :
    Executes s (.law l) .lawAdded { s with laws := s.laws ++ [l] }
  | prove {lhs rhs name : String} {θ : Theory} (hs : s.selected = some name)
    (hθ : s.library.get? name = some θ) :
    Executes s (.prove lhs rhs) (.proofStarted s.proof)
      { s with
        library := s.library.put name (θ.start (s.problem name lhs rhs))
        proof := some (.ofProblem (s.problem name lhs rhs))
        started := s.started + 1 }
  | step {rule expression name : String} {θ : Theory} {π : Proof} {st : ProofStep}
    (hs : s.selected = some name) (hθ : s.library.get? name = some θ) (hπ : s.proof = some π)
    (hj : Proof.justify π.problem θ π.current expression (s.ruleName π.problem rule) = .ok st) :
    Executes s (.step rule expression) (.stepAdded st)
      { s with proof := some { π with steps := π.steps ++ [st] } }

variable {s s' : Session} {c : Command} {o : Outcome}

theorem executes_of_execute (h : s.execute c = (.ok o, s')) : s.Executes c o s' := by
  cases c with
  | theory name =>
    rw [execute, selectTheory] at h
    split at h
    · cases h
    · next θ hθ =>
      cases h
      exact .theory (Library.get_eq_ok_iff.mp hθ)
  | law l =>
    rw [execute, addLaw] at h
    split at h
    · cases h
    · next name hs =>
      cases h
      exact .law hs
  | prove lhs rhs =>
    rw [execute, startProof] at h
    split at h
    · cases h
    next name hs =>
    split at h
    · cases h
    next θ hθ =>
    cases h
    exact .prove hs (Library.get_eq_ok_iff.mp hθ)
  | step rule expression =>
    rw [execute, addStep] at h
    split at h
    · cases h
    next name hs =>
    split at h
    · cases h
    next θ hθ =>
    split at h
    · cases h
    next π hπ =>
    split at h
    · next st π' hadd =>
      cases h
      obtain ⟨hj, rfl⟩ := Proof.add_eq_ok_iff.mp hadd
      exact .step hs (Library.get_eq_ok_iff.mp hθ) hπ hj
    · cases h

/-- A command that fails changes nothing. -/
theorem eq_of_execute_error {e : ScriptError} (h : s.execute c = (.error e, s')) : s' = s := by
  cases c with
  | theory name =>
    rw [execute, selectTheory] at h
    split at h <;> cases h
    rfl
  | law l =>
    rw [execute, addLaw] at h
    split at h <;> cases h
    rfl
  | prove lhs rhs =>
    rw [execute, startProof] at h
    split at h
    · cases h
      rfl
    · split at h <;> cases h
      rfl
  | step rule expression =>
    rw [execute, addStep] at h
    split at h
    · cases h
      rfl
    next name hs =>
    split at h
    · cases h
      rfl
    next θ hθ =>
    split at h
    · cases h
      rfl
    next π hπ =>
    split at h
    · cases h
    · next e' π' hadd =>
      cases h
      rw [Proof.add_eq_error hadd, ← hπ]

theorem Executes.proof_of_ended? (h : s.Executes c o s') {π : Proof} (hπ : o.ended? = some π) :
    s.proof = some π := by
  cases h with
  | theory hθ => exact hπ
  | law hs => cases hπ
  | prove hs hθ => exact hπ
  | step hs hθ hρ hj => cases hπ

/-- The rule of an accepted step is the one that the selected theory has under the name that the
session has turned the given one into. -/
theorem Executes.exists_schema {rule expression : String} {st : ProofStep} {π : Proof}
    (h : s.Executes (.step rule expression) (.stepAdded st) s') (hπ : s.proof = some π) :
    ∃ name θ d, s.selected = some name ∧ s.library.get? name = some θ ∧
      θ.schema? (s.ruleName π.problem rule) = some d ∧ d.rule = st.rule := by
  cases h with
  | @step _ _ name θ ρ _ hs hθ hρ hj =>
    obtain rfl : ρ = π := Option.some.inj (hρ.symm.trans hπ)
    obtain ⟨-, -, t, u, d, -, -, hd, -, -, rfl⟩ := Proof.justify_eq_ok_iff.mp hj
    exact ⟨name, θ, d, hs, hθ, hd, rfl⟩

/-- Carries out commands one after the other, and goes on behind those that fail. -/
def executeAll (s : Session) : List Command → List (Except ScriptError Outcome) × Session
  | [] => ([], s)
  | c :: cs =>
    let (o, s) := s.execute c
    let (os, s) := executeAll s cs
    (o :: os, s)

theorem executeAll_cons (s : Session) (c : Command) (cs : List Command) :
    s.executeAll (c :: cs) = ((s.execute c).1 :: ((s.execute c).2.executeAll cs).1,
      ((s.execute c).2.executeAll cs).2) := rfl

/-- The proofs that commands hand back. -/
def endedProofs (os : List (Except ScriptError Outcome)) : List Proof :=
  os.filterMap fun o => o.toOption.bind Outcome.ended?

/-- What every command that succeeds preserves holds at the end of a run, and what it makes true of
the proof that it hands back holds of all proofs handed back in the run. -/
theorem executeAll_induction {P : Session → Prop} {Q : Proof → Prop}
    (step : ∀ s c o s', P s → s.Executes c o s' → P s')
    (ended : ∀ s π, P s → s.proof = some π → Q π) (cs : List Command) (h : P s) :
    P (s.executeAll cs).2 ∧ ∀ π ∈ endedProofs (s.executeAll cs).1, Q π := by
  induction cs generalizing s with
  | nil => exact ⟨h, by simp [executeAll, endedProofs]⟩
  | cons c cs ih =>
    rw [executeAll]
    rcases hx : s.execute c with ⟨r, s'⟩
    cases r with
    | error e =>
      obtain rfl := eq_of_execute_error hx
      obtain ⟨hs, hall⟩ := ih h
      exact ⟨hs, hall⟩
    | ok o =>
      have ho := executes_of_execute hx
      obtain ⟨hs, hall⟩ := ih (step s c o s' h ho)
      refine ⟨hs, fun π hπ => ?_⟩
      rw [endedProofs, List.filterMap_cons] at hπ
      split at hπ
      · exact hall π hπ
      · next ρ hρ =>
        rcases List.mem_cons.mp hπ with rfl | hπ
        · exact ended s π h (ho.proof_of_ended? hρ)
        · exact hall π hπ

end Session

end Equational
