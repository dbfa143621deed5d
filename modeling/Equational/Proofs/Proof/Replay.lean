import Equational.Proofs.Proof.Justified
import Equational.Proofs.Theory.Shipped

namespace Equational.Proof

/-- The ways to change the steps of a proof. -/
inductive Edit where
  | add (expression ruleName : String)
  | edit (index : Nat) (expression ruleName : String)
  | delete (index : Nat)

/-- The proof after an edit, which has changed nothing if it was refused. -/
def perform (π : Proof) (θ : Theory) : Edit → Proof
  | .add expression ruleName => (π.add θ expression ruleName).2
  | .edit index expression ruleName => (π.edit θ index expression ruleName).2
  | .delete index => (π.delete index).2

def performAll (π : Proof) (θ : Theory) (es : List Edit) : Proof :=
  es.foldl (fun π e => π.perform θ e) π

/-- Adds the expressions of some steps under the names of their rules, one after the other, up to
the first that is refused. -/
def replay (π : Proof) (θ : Theory) : List ProofStep → Except ProofError Proof
  | [] => .ok π
  | s :: ss =>
    match π.add θ s.expression s.rule.name with
    | (.ok _, π) => π.replay θ ss
    | (.error e, _) => .error e

variable {π : Proof} {θ : Theory}

/-- The proof as it was when it had `n` steps. -/
def upTo (π : Proof) (n : Nat) : Proof := { π with steps := π.steps.take n }

theorem expressionAfter_upTo {i n : Nat} (h : i ≤ n) :
    (π.upTo n).expressionAfter i = π.expressionAfter i := by
  rw [expressionAfter, expressionAfter, upTo, List.take_take, Nat.min_eq_left h]

theorem current_upTo {n : Nat} (h : n ≤ π.steps.length) :
    (π.upTo n).current = π.expressionAfter n := by
  have hlength : (π.upTo n).steps.length = n := by
    rw [upTo, List.length_take, Nat.min_eq_left h]
  rw [current_eq_expressionAfter, hlength, expressionAfter_upTo (Nat.le_refl n)]

/-- A step is justified by what comes before it alone, so the others may be dropped. -/
theorem Justified.upTo (h : π.Justified θ) (n : Nat) : (π.upTo n).Justified θ := by
  intro i s hs
  rw [Proof.upTo, List.getElem?_take] at hs
  split at hs
  · next hi =>
    rw [expressionAfter_upTo (Nat.le_of_lt hi)]
    exact h i s hs
  · cases hs

theorem Justified.perform (h : π.Justified θ) (e : Edit) : (π.perform θ e).Justified θ := by
  cases e with
  | add expression ruleName =>
    rw [Proof.perform, add]
    split
    · next s hs => exact justified_append h hs
    · exact h
  | edit index expression ruleName =>
    rw [Proof.perform, edit]
    split
    · next hi =>
      split
      · next s hs =>
        rw [expressionBefore_eq_expressionAfter, ← current_upTo (Nat.le_of_lt hi)] at hs
        exact justified_append (h.upTo index) hs
      · exact h
    · exact h
  | delete index =>
    rw [Proof.perform, delete]
    split
    · exact h.upTo index
    · exact h

theorem problem_perform (π : Proof) (θ : Theory) (e : Edit) :
    (π.perform θ e).problem = π.problem := by
  cases e with
  | add expression ruleName =>
    rw [perform, add]
    split <;> rfl
  | edit index expression ruleName =>
    rw [perform, edit]
    split
    · split <;> rfl
    · rfl
  | delete index =>
    rw [perform, delete]
    split <;> rfl

theorem Justified.performAll (h : π.Justified θ) (es : List Edit) :
    (π.performAll θ es).Justified θ ∧ (π.performAll θ es).problem = π.problem := by
  induction es generalizing π with
  | nil => exact ⟨h, rfl⟩
  | cons e es ih =>
    obtain ⟨hj, hp⟩ := ih (h.perform e)
    exact ⟨hj, hp.trans (problem_perform π θ e)⟩

/-- The steps behind the first `n` are accepted again after these. -/
theorem Justified.replay_upTo (h : π.Justified θ) {n : Nat} (hn : n ≤ π.steps.length) :
    (π.upTo n).replay θ (π.steps.drop n) = .ok π := by
  -- from the last step backwards: with all steps there nothing is left to replay
  induction hk : π.steps.length - n generalizing n with
  | zero =>
    obtain rfl : n = π.steps.length := by omega
    rw [List.drop_length, replay, Proof.upTo, List.take_length]
  | succ k ih =>
    have hlt : n < π.steps.length := by omega
    have hget : π.steps[n]? = some π.steps[n] := List.getElem?_eq_getElem hlt
    have hadd : (π.upTo n).add θ π.steps[n].expression π.steps[n].rule.name =
        (.ok π.steps[n], π.upTo (n + 1)) := by
      refine add_eq_ok_iff.mpr ⟨?_, ?_⟩
      · rw [current_upTo hn]
        exact h n _ hget
      · rw [Proof.upTo, Proof.upTo, List.take_add_one, hget]
        rfl
    rw [List.drop_eq_getElem_cons hlt, replay, hadd]
    exact ih hlt (by omega)

/-- What any edits of a proof leave is recorded again step by step, and every step of it is one use
of a rule that the problem allows, from the expression before it. -/
theorem replay_of_edits (θ : Theory) (p : Problem) (es : List Edit) :
    (ofProblem p).replay θ ((ofProblem p).performAll θ es).steps =
      .ok ((ofProblem p).performAll θ es) ∧
    ∀ i s, ((ofProblem p).performAll θ es).steps[i]? = some s →
      p.allows s.rule = true ∧
      ∃ t u, θ.read (((ofProblem p).performAll θ es).expressionAfter i) = .ok t ∧
        θ.read s.expression = .ok u ∧
        (θ.validate t u s.rule.name).outcome = .ok () ∧
        (θ.validate t u s.rule.name).rule = some s.rule ∧
        t ≠ u ∧ ∃ d ∈ θ.schemas, d.rule = s.rule ∧ ∃ (C : Context) (v : Char → Term),
          d.equation.RewritesIn C v t u ∨ d.equation.flip.RewritesIn C v t u := by
  obtain ⟨hj, hp⟩ := (justified_ofProblem p θ).performAll es
  generalize (ofProblem p).performAll θ es = π at hj hp
  have hp' : π.problem = p := hp
  constructor
  · have hempty : π.upTo 0 = ofProblem p := by
      rw [upTo, hp', List.take_zero, ofProblem]
    rw [← hempty]
    exact hj.replay_upTo (Nat.zero_le _)
  · intro i s hs
    obtain ⟨ha, t, u, d, ht, hu, hd, hrule, ho⟩ := hj.exists_schema hs
    have hc : d.equation.check t u = .ok () := (Theory.outcome_eq_ok_iff.mp ho).2.2.2
    rw [hp'] at ha
    refine ⟨ha, t, u, ht, hu, Theory.validate_eq_ok_iff.mpr ⟨d, hd, ho⟩, ?_,
      (Equation.check_eq_ok_iff.mp hc).1, d, List.mem_of_find?_eq_some hd, hrule,
      Equation.exists_rewritesIn_of_check hc⟩
    rw [Theory.rule_validate_of_schema? hd, hrule]

/-- Edits of which one is refused, one drops the steps behind its own, and one finds no step. -/
theorem replay_of_edits_of_difference :
    let p : Problem := { (default : Problem) with
      lhs := "(A \\ B) ∪ (A ∩ B)", rhs := "A", enabledRules := some ["defdiff", "dist1", "comm2"] }
    let es : List Edit := [.add "(A ∩ Bᶜ) ∪ (A ∩ B)" "defdiff", .add "A ∩ (Bᶜ ∪ B)" "dist1",
      .add "A ∩ (B ∪ Bᶜ)" "comm1", .edit 1 "(Bᶜ ∩ A) ∪ (A ∩ B)" "comm2", .delete 2]
    ∃ π s t u, (ofProblem p).performAll Theory.sets es = π ∧
      (ofProblem p).replay Theory.sets π.steps = .ok π ∧
      π.steps.map (·.expression) = ["(A∩Bᶜ)∪(A∩B)", "(Bᶜ∩A)∪(A∩B)"] ∧
      π.steps[1]? = some s ∧ Theory.sets.read "(A∩Bᶜ)∪(A∩B)" = .ok t ∧
      Theory.sets.read s.expression = .ok u ∧
      (Theory.sets.validate t u s.rule.name).outcome = .ok () := by
  intro p es
  obtain ⟨hreplay, hsteps⟩ := replay_of_edits Theory.sets p es
  have hrun : ((ofProblem p).performAll Theory.sets es).steps.map (·.expression) =
        ["(A∩Bᶜ)∪(A∩B)", "(Bᶜ∩A)∪(A∩B)"] ∧
      ((ofProblem p).performAll Theory.sets es).expressionAfter 1 = "(A∩Bᶜ)∪(A∩B)" := by
    decide +kernel
  obtain ⟨π, hπ⟩ : ∃ π, (ofProblem p).performAll Theory.sets es = π := ⟨_, rfl⟩
  rw [hπ] at hreplay hsteps hrun
  obtain ⟨hexpressions, hafter⟩ := hrun
  have hlength : π.steps.length = 2 := by
    simpa using congrArg List.length hexpressions
  have hs : π.steps[1]? = some π.steps[1] := List.getElem?_eq_getElem (by omega)
  obtain ⟨-, t, u, ht, hu, ho, -⟩ := hsteps 1 _ hs
  rw [hafter] at ht
  exact ⟨π, π.steps[1], t, u, hπ, hreplay, hexpressions, hs, ht, hu, ho⟩

end Equational.Proof
