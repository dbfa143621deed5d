import Equational.Proofs.Except
import Equational.Proof
import Equational.Proofs.Semantics.Valuation
import Equational.Proofs.Theory.Loading

namespace Equational

namespace Proof

theorem squeeze_squeeze (cs : List Char) : Text.squeeze (Text.squeeze cs) = Text.squeeze cs := by
  simp [Text.squeeze]

/-- When a step is accepted, and what is recorded. -/
theorem justify_eq_ok_iff {p : Problem} {θ : Theory} {previous expression name : String}
    {s : ProofStep} :
    justify p θ previous expression name = .ok s ↔
      (String.ofList (Text.squeeze expression.toList)).isEmpty = false ∧ name.isEmpty = false ∧
      ∃ t u d, θ.read previous = .ok t ∧
        θ.read (String.ofList (Text.squeeze expression.toList)) = .ok u ∧
        θ.schema? name = some d ∧ p.allows d.rule = true ∧ θ.outcome d t u = .ok () ∧
        s = ⟨String.ofList (Text.squeeze expression.toList), d.rule⟩ := by
  generalize he : String.ofList (Text.squeeze expression.toList) = squeezed
  rw [justify]
  simp only [he, bind, Except.bind, throw, throwThe, MonadExceptOf.throw]
  cases squeezed.isEmpty with
  | true => simp
  | false =>
    cases name.isEmpty with
    | true => simp
    | false =>
      cases θ.read previous with
      | error e => simp
      | ok t =>
        cases θ.read squeezed with
        | error e => simp
        | ok u =>
          cases hd : θ.schema? name with
          | none =>
            simp only [mapError_ok, mapError_error, Theory.validate, hd, Bool.false_eq_true,
              if_false]
            split <;> simp
          | some d =>
            cases hp : p.allows d.rule with
            | false => simp [Theory.rule?, hd, hp]
            | true =>
              cases ho : θ.outcome d t u with
              | error e => simp [Theory.validate, Theory.rule?, hd, hp, ho]
              | ok r =>
                simp [Theory.validate, Theory.rule?, hd, hp, ho, pure, Except.pure]
                exact eq_comm

/-- The expression that the first `n` steps arrive at. -/
def expressionAfter (π : Proof) (n : Nat) : String :=
  match (π.steps.take n).getLast? with
  | some s => s.expression
  | none => π.problem.lhs

/-- Every recorded step is what its expression and the name of its rule are accepted as, from the
expression before it. -/
def Justified (π : Proof) (θ : Theory) : Prop :=
  ∀ i s, π.steps[i]? = some s →
    justify π.problem θ (π.expressionAfter i) s.expression s.rule.name = .ok s

variable {π π' : Proof} {θ : Theory}

theorem justified_ofProblem (p : Problem) (θ : Theory) : (ofProblem p).Justified θ := by
  intro i s h
  cases h

theorem expressionAfter_succ {i : Nat} {s : ProofStep} (h : π.steps[i]? = some s) :
    π.expressionAfter (i + 1) = s.expression := by
  have ht : (π.steps.take (i + 1)).getLast? = some s := by
    rw [List.take_add_one, h, Option.toList_some, List.getLast?_concat]
  rw [expressionAfter, ht]

/-- The next step starts from what all steps arrive at. -/
theorem current_eq_expressionAfter (π : Proof) :
    π.current = π.expressionAfter π.steps.length := by
  change π.current = ({ π with steps := π.steps.take π.steps.length } : Proof).current
  rw [List.take_length]

/-- A recorded step starts from what the steps before it arrive at. -/
theorem expressionBefore_eq_expressionAfter {i : Nat} (h : i < π.steps.length) :
    π.expressionBefore i h = π.expressionAfter i := by
  cases i with
  | zero => rfl
  | succ i =>
    have hget : π.steps[i]? = some π.steps[i] := List.getElem?_eq_getElem (by omega)
    rw [expressionAfter_succ hget, expressionBefore]

/-- A recorded step is accepted again under the name of its rule. -/
theorem justify_again {p : Problem} {previous expression name : String} {s : ProofStep}
    (h : justify p θ previous expression name = .ok s) :
    justify p θ previous s.expression s.rule.name = .ok s := by
  obtain ⟨he, hn, t, u, d, ht, hu, hd, ha, ho, rfl⟩ := justify_eq_ok_iff.mp h
  have hs : String.ofList (Text.squeeze (String.ofList (Text.squeeze expression.toList)).toList) =
      String.ofList (Text.squeeze expression.toList) := by
    rw [String.toList_ofList, squeeze_squeeze]
  obtain rfl := Theory.name_of_schema? hd
  refine justify_eq_ok_iff.mpr ⟨?_, hn, t, u, d, ht, ?_, hd, ha, ho, ?_⟩
  · rw [hs]
    exact he
  · rw [hs]
    exact hu
  · rw [hs]

/-- A recorded step is allowed by the problem, the expressions before and behind it can be read, and
the rule that the theory has under the recorded name is the recorded one and leads from one to the
other. -/
theorem Justified.exists_schema (h : π.Justified θ) {i : Nat} {s : ProofStep}
    (hs : π.steps[i]? = some s) :
    π.problem.allows s.rule = true ∧
      ∃ t u d, θ.read (π.expressionAfter i) = .ok t ∧ θ.read s.expression = .ok u ∧
        θ.schema? s.rule.name = some d ∧ d.rule = s.rule ∧ θ.outcome d t u = .ok () := by
  obtain ⟨-, -, t, u, d, ht, hu, hd, ha, ho, he⟩ := justify_eq_ok_iff.mp (h i s hs)
  have hrule : d.rule = s.rule := by rw [he]
  have hexpression : String.ofList (Text.squeeze s.expression.toList) = s.expression :=
    (congrArg ProofStep.expression he).symm
  rw [hexpression] at hu
  rw [hrule] at ha
  exact ⟨ha, t, u, d, ht, hu, hd, hrule, ho⟩

/-- Every recorded step is found right when it is checked again, and is reported with the rule that
was recorded. -/
theorem Justified.validate (h : π.Justified θ) {i : Nat} {s : ProofStep}
    (hs : π.steps[i]? = some s) :
    ∃ t u, θ.read (π.expressionAfter i) = .ok t ∧ θ.read s.expression = .ok u ∧
      (θ.validate t u s.rule.name).outcome = .ok () ∧
      (θ.validate t u s.rule.name).rule = some s.rule := by
  obtain ⟨-, t, u, d, ht, hu, hd, hrule, ho⟩ := h.exists_schema hs
  refine ⟨t, u, ht, hu, Theory.validate_eq_ok_iff.mpr ⟨d, hd, ho⟩, ?_⟩
  rw [Theory.rule_validate_of_schema? hd, hrule]

theorem add_eq_ok_iff {expression name : String} {s : ProofStep} :
    π.add θ expression name = (.ok s, π') ↔
      justify π.problem θ π.current expression name = .ok s ∧
        π' = { π with steps := π.steps ++ [s] } := by
  rw [add]
  split
  · next s' hs =>
    rw [hs]
    simp only [Prod.mk.injEq, Except.ok.injEq]
    constructor
    · rintro ⟨rfl, rfl⟩
      exact ⟨rfl, rfl⟩
    · rintro ⟨rfl, rfl⟩
      exact ⟨rfl, rfl⟩
  · next e he => simp [he]

/-- A step that is refused leaves the proof as it was. -/
theorem add_eq_error {expression name : String} {e : ProofError}
    (h : π.add θ expression name = (.error e, π')) : π' = π := by
  rw [add] at h
  split at h
  · cases h
  · exact (Prod.mk.inj h).2.symm

theorem justified_append {expression name : String} {s : ProofStep} (hπ : π.Justified θ)
    (hj : justify π.problem θ π.current expression name = .ok s) :
    Justified { π with steps := π.steps ++ [s] } θ := by
  intro i r hr
  have hi : i < (π.steps ++ [s]).length := (List.getElem?_eq_some_iff.mp hr).1
  have hle : i ≤ π.steps.length := by
    rw [List.length_append, List.length_singleton] at hi
    omega
  have hafter : expressionAfter { π with steps := π.steps ++ [s] } i = π.expressionAfter i := by
    rw [expressionAfter, expressionAfter, List.take_append_of_le_length hle]
  rw [hafter]
  by_cases hlt : i < π.steps.length
  · rw [List.getElem?_append_left hlt] at hr
    exact hπ i r hr
  · obtain rfl : i = π.steps.length := by omega
    rw [List.getElem?_concat_length] at hr
    obtain rfl := Option.some.inj hr
    rw [current_eq_expressionAfter] at hj
    exact justify_again hj

universe u

/-- What the steps arrive at has the value of what they start from, in every interpretation in
which the available rules hold. -/
theorem eval_expressionAfter (hπ : π.Justified θ) {n : Nat} (hn : n < π.steps.length) :
    ∃ t w, θ.read π.problem.lhs = .ok t ∧ θ.read (π.expressionAfter (n + 1)) = .ok w ∧
      ∀ {α : Type u} (A : Char → List α → α) (v : Char → α),
        (∀ d ∈ θ.schemas, d.equation.Holds A v) → t.eval A v = w.eval A v := by
  obtain ⟨s, hget⟩ : ∃ s, π.steps[n]? = some s := ⟨_, List.getElem?_eq_getElem hn⟩
  obtain ⟨-, t, w, d, ht, hw, hd, -, ho⟩ := hπ.exists_schema hget
  have hw' : θ.read (π.expressionAfter (n + 1)) = .ok w := by
    rw [expressionAfter_succ hget]
    exact hw
  have hm : d ∈ θ.schemas := List.mem_of_find?_eq_some hd
  have hc : d.equation.check t w = .ok () := (Theory.outcome_eq_ok_iff.mp ho).2.2.2
  have hstep : ∀ {α : Type u} (A : Char → List α → α) (v : Char → α),
      (∀ d ∈ θ.schemas, d.equation.Holds A v) → t.eval A v = w.eval A v :=
    fun A v hA => Equation.eval_eq_of_check hc (hA d hm)
  cases n with
  | zero => exact ⟨t, w, ht, hw', hstep⟩
  | succ n =>
    obtain ⟨t₀, t', ht₀, ht', heval⟩ := eval_expressionAfter hπ (Nat.lt_of_succ_lt hn)
    obtain rfl : t' = t := Except.ok.inj (ht'.symm.trans ht)
    exact ⟨t₀, w, ht₀, hw', fun A v hA => (heval A v hA).trans (hstep A v hA)⟩

theorem isComplete_iff :
    π.isComplete θ = true ↔
      π.steps ≠ [] ∧ ∃ t, θ.read π.current = .ok t ∧ θ.read π.problem.rhs = .ok t := by
  rw [isComplete, current]
  cases hs : π.steps.getLast? with
  | none => simp [List.getLast?_eq_none_iff.mp hs]
  | some s =>
    have hne : π.steps ≠ [] := by
      rintro h
      simp [h] at hs
    cases ht : θ.read s.expression with
    | error e => simp [ht]
    | ok t =>
      cases hu : θ.read π.problem.rhs with
      | error e => simp [ht]
      | ok u => simp [ht, hne, eq_comm]

/-- A complete proof proves its equation wherever the available rules hold. -/
theorem eval_of_isComplete (hπ : π.Justified θ) (h : π.isComplete θ = true) :
    ∃ t w, θ.read π.problem.lhs = .ok t ∧ θ.read π.problem.rhs = .ok w ∧
      ∀ {α : Type u} (A : Char → List α → α) (v : Char → α),
        (∀ d ∈ θ.schemas, d.equation.Holds A v) → t.eval A v = w.eval A v := by
  obtain ⟨hne, w, hw, hr⟩ := isComplete_iff.mp h
  rw [current_eq_expressionAfter] at hw
  have hpos : 0 < π.steps.length := List.length_pos_iff.mpr hne
  have hlast : π.steps.length - 1 < π.steps.length := by omega
  obtain ⟨t, w', ht, hw', heval⟩ := eval_expressionAfter hπ hlast
  rw [Nat.sub_add_cancel hpos] at hw'
  obtain rfl : w' = w := Except.ok.inj (hw'.symm.trans hw)
  exact ⟨t, w', ht, hr, heval⟩

end Proof

end Equational
