import Equational.Proofs.Proof.Replay

namespace Equational.Proof

variable {π π' : Proof} {θ : Theory} {index : Nat} {expression ruleName : String}

theorem delete_of_lt (h : index < π.steps.length) : π.delete index = (.ok (), π.upTo index) := by
  rw [delete, if_pos h]
  rfl

theorem delete_of_le (h : π.steps.length ≤ index) :
    π.delete index = (.error (.noStep index), π) := by
  rw [delete, if_neg (Nat.not_lt.mpr h)]

theorem edit_of_le (h : π.steps.length ≤ index) (θ : Theory) (expression ruleName : String) :
    π.edit θ index expression ruleName = (.error (.noStep index), π) := by
  rw [edit, dif_neg (Nat.not_lt.mpr h)]

/-- A deletion that is refused leaves the proof as it was. -/
theorem delete_eq_error {e : ProofError} (h : π.delete index = (.error e, π')) : π' = π := by
  by_cases hi : index < π.steps.length
  · rw [delete_of_lt hi] at h
    cases (Prod.mk.inj h).1
  · rw [delete_of_le (Nat.not_lt.mp hi)] at h
    exact (Prod.mk.inj h).2.symm

/-- The step before the edited one is the last step of the proof without it. -/
theorem edit_of_lt (h : index < π.steps.length) (θ : Theory) (expression ruleName : String) :
    π.edit θ index expression ruleName =
      match (π.upTo index).add θ expression ruleName with
      | (.ok s, shorter) => (.ok s, shorter)
      | (.error e, _) => (.error e, π) := by
  rw [edit, dif_pos h, expressionBefore_eq_expressionAfter, add, current_upTo (Nat.le_of_lt h)]
  have hproblem : (π.upTo index).problem = π.problem := rfl
  rw [hproblem]
  cases justify π.problem θ (π.expressionAfter index) expression ruleName with
  | ok s => rfl
  | error e => rfl

/-- An edit that is refused leaves the proof as it was. -/
theorem edit_eq_error {e : ProofError}
    (h : π.edit θ index expression ruleName = (.error e, π')) : π' = π := by
  by_cases hi : index < π.steps.length
  · rw [edit_of_lt hi] at h
    split at h
    · cases (Prod.mk.inj h).1
    · exact (Prod.mk.inj h).2.symm
  · rw [edit_of_le (Nat.not_lt.mp hi)] at h
    exact (Prod.mk.inj h).2.symm

/-- Where there is no step of a number, it can be neither edited nor dropped. Where there is one, an
edit finds what an addition finds after the step has been dropped, and leaves the same proof if it
succeeds. Whatever is refused leaves the proof as it was. -/
theorem edit_is_delete_and_add (π : Proof) (θ : Theory) (index : Nat)
    (expression ruleName : String) :
    (π.steps.length ≤ index →
      π.edit θ index expression ruleName = (.error (.noStep index), π) ∧
      π.delete index = (.error (.noStep index), π)) ∧
    (index < π.steps.length → ∃ shorter, π.delete index = (.ok (), shorter) ∧
      (π.edit θ index expression ruleName).1 = (shorter.add θ expression ruleName).1 ∧
      ∀ s, (π.edit θ index expression ruleName).1 = .ok s →
        (π.edit θ index expression ruleName).2 = (shorter.add θ expression ruleName).2) ∧
    (∀ e π', π.add θ expression ruleName = (.error e, π') → π' = π) ∧
    (∀ e π', π.edit θ index expression ruleName = (.error e, π') → π' = π) ∧
    ∀ e π', π.delete index = (.error e, π') → π' = π := by
  refine ⟨?_, ?_, fun _ _ => add_eq_error, fun _ _ => edit_eq_error, fun _ _ => delete_eq_error⟩
  · intro h
    exact ⟨edit_of_le h θ expression ruleName, delete_of_le h⟩
  · intro h
    refine ⟨π.upTo index, delete_of_lt h, ?_⟩
    rw [edit_of_lt h]
    obtain ⟨found, shorter⟩ := (π.upTo index).add θ expression ruleName
    cases found with
    | ok s => exact ⟨rfl, fun _ _ => rfl⟩
    | error e =>
      refine ⟨rfl, fun s hs => ?_⟩
      cases hs

/-- The first of two steps is edited, once with what follows and once with what does not. -/
theorem edit_is_delete_and_add_of_difference :
    let p : Problem := { (default : Problem) with lhs := "(A \\ B) ∪ (A ∩ B)", rhs := "A" }
    let es : List Edit := [.add "(A ∩ Bᶜ) ∪ (A ∩ B)" "defdiff", .add "A ∩ (Bᶜ ∪ B)" "dist1"]
    ∃ π, (ofProblem p).performAll Theory.sets es = π ∧ π.steps.length = 2 ∧
      π.edit Theory.sets 2 "A" "id2" = (.error (.noStep 2), π) ∧
      (∃ shorter s, π.delete 0 = (.ok (), shorter) ∧
        (π.edit Theory.sets 0 "(A \\ B) ∪ (B ∩ A)" "comm2").1 = .ok s ∧
        π.edit Theory.sets 0 "(A \\ B) ∪ (B ∩ A)" "comm2" =
          shorter.add Theory.sets "(A \\ B) ∪ (B ∩ A)" "comm2") ∧
      ∃ e e', π.edit Theory.sets 0 "A" "comm2" = (.error e, π) ∧
        π.add Theory.sets "A" "comm2" = (.error e', π) := by
  intro p es
  have hrun : ((ofProblem p).performAll Theory.sets es).steps.length = 2 ∧
      (((ofProblem p).performAll Theory.sets es).edit Theory.sets 0 "(A \\ B) ∪ (B ∩ A)"
        "comm2").1.isOk = true ∧
      (((ofProblem p).performAll Theory.sets es).edit Theory.sets 0 "A"
        "comm2").1.isOk = false ∧
      (((ofProblem p).performAll Theory.sets es).add Theory.sets "A"
        "comm2").1.isOk = false := by
    decide +kernel
  obtain ⟨π, hπ⟩ : ∃ π, (ofProblem p).performAll Theory.sets es = π := ⟨_, rfl⟩
  rw [hπ, isOk_eq_true_iff, isOk_eq_false_iff, isOk_eq_false_iff] at hrun
  obtain ⟨hlength, ⟨s, hs⟩, ⟨e, he⟩, e', he'⟩ := hrun
  obtain ⟨hnone, -⟩ := edit_is_delete_and_add π Theory.sets 2 "A" "id2"
  obtain ⟨-, hsome, -⟩ := edit_is_delete_and_add π Theory.sets 0 "(A \\ B) ∪ (B ∩ A)" "comm2"
  obtain ⟨-, -, hadd, hedit, -⟩ := edit_is_delete_and_add π Theory.sets 0 "A" "comm2"
  obtain ⟨shorter, hdelete, hfound, hleft⟩ := hsome (by omega)
  refine ⟨π, hπ, hlength, (hnone (by omega)).1, ⟨shorter, s, hdelete, hs, ?_⟩, e, e', ?_, ?_⟩
  · exact Prod.ext hfound (hleft s hs)
  · exact Prod.ext he (hedit e _ (Prod.ext he rfl))
  · exact Prod.ext he' (hadd e' _ (Prod.ext he' rfl))

end Equational.Proof
