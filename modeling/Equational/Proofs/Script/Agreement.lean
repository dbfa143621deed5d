import Equational.Proofs.Script.Soundness

namespace Equational

/-- The theory has the problem of the proof active, or none if there is no proof, and holds the laws
of that problem. -/
structure Theory.Hosts (θ : Theory) (name : String) (π? : Option Proof) : Prop where
  active : θ.active = π?.map (·.problem.id)
  theory : ∀ π, π? = some π → π.problem.theory = name
  laws : ∀ π, π? = some π → π.problem.customLaws = some θ.customLaws

theorem Theory.hosts_clear (θ : Theory) (name : String) : θ.clear.Hosts name none where
  active := rfl
  theory _ h := by cases h
  laws _ h := by cases h

theorem Theory.hosts_start (θ : Theory) {name : String} {p : Problem} {laws : List Law}
    (hp : p.theory = name) (hl : p.customLaws = some laws) :
    (θ.start p).Hosts name (some (.ofProblem p)) where
  active := by
    rw [start, hl]
    rfl
  theory π h := by
    obtain rfl := Option.some.inj h
    exact hp
  laws π h := by
    obtain rfl := Option.some.inj h
    have hstored : (θ.start p).customLaws = laws := by
      simp [start, hl, customLaws, load]
    rw [hstored]
    exact hl

/-- What a proof is hosted by depends on its problem only. -/
theorem Theory.Hosts.of_problem_eq {θ : Theory} {name : String} {π ρ : Proof}
    (h : θ.Hosts name (some π)) (hp : ρ.problem = π.problem) : θ.Hosts name (some ρ) where
  active := by
    rw [h.active, Option.map_some, Option.map_some, hp]
  theory τ hτ := by
    obtain rfl := Option.some.inj hτ
    rw [hp]
    exact h.theory π rfl
  laws τ hτ := by
    obtain rfl := Option.some.inj hτ
    rw [hp]
    exact h.laws π rfl

namespace Session

/-- Without a selected theory there is no proof, and a selected one hosts the running proof. -/
structure Hosted (s : Session) : Prop where
  unselected : s.selected = none → s.proof = none
  selected : ∀ name, s.selected = some name →
    ∃ θ, s.library.get? name = some θ ∧ θ.Hosts name s.proof

variable {s s' : Session} {c : Command} {o : Outcome}

theorem hosted_fresh (L : Library) : (fresh L).Hosted where
  unselected _ := rfl
  selected _ h := by cases h

theorem hosted_of_executes (h : s.Hosted) (hc : s.Executes c o s') : s'.Hosted := by
  cases hc with
  | @theory name θ hθ =>
    refine ⟨fun hs => (by cases hs), fun other hs => ?_⟩
    obtain rfl := Option.some.inj hs
    exact ⟨θ.clear, Library.get?_put_self _ _ _, θ.hosts_clear name⟩
  | law hs =>
    exact ⟨h.unselected, h.selected⟩
  | @prove lhs rhs name θ hs hθ =>
    refine ⟨fun hn => (by rw [hs] at hn; cases hn), fun other ho => ?_⟩
    obtain rfl : name = other := Option.some.inj (hs.symm.trans ho)
    exact ⟨_, Library.get?_put_self _ _ _, θ.hosts_start rfl rfl⟩
  | @step rule expression name θ π st hs hθ hπ hj =>
    refine ⟨fun hn => (by rw [hs] at hn; cases hn), fun other ho => ?_⟩
    obtain ⟨θ', hθ', hhosts⟩ := h.selected other ho
    rw [hπ] at hhosts
    exact ⟨θ', hθ', hhosts.of_problem_eq rfl⟩

theorem hosted_executeAll (h : s.Hosted) (cs : List Command) : (s.executeAll cs).2.Hosted :=
  (executeAll_induction (Q := fun _ => True) (fun _ _ _ _ hs hc => hosted_of_executes hs hc)
    (fun _ _ _ _ => trivial) cs h).1

/-- Whatever commands are carried out in a session of its own, with any library: without a theory
there is no proof. A selected theory is there, and its active problem is that of the running proof.
The proof belongs to it and brings along just the laws that the theory holds, and every recorded
step, from the expression before it, is found right again and reported with the recorded rule. -/
theorem parts_agree (L : Library) (cs : List Command) :
    (((fresh L).executeAll cs).2.selected = none → ((fresh L).executeAll cs).2.proof = none) ∧
    ∀ name, ((fresh L).executeAll cs).2.selected = some name →
      ∃ θ, ((fresh L).executeAll cs).2.library.get? name = some θ ∧
        θ.active = ((fresh L).executeAll cs).2.proof.map (·.problem.id) ∧
        ∀ π, ((fresh L).executeAll cs).2.proof = some π →
          π.problem.theory = name ∧ π.problem.customLaws = some θ.customLaws ∧
          ∀ i st, π.steps[i]? = some st →
            ∃ t u, θ.read (π.expressionAfter i) = .ok t ∧ θ.read st.expression = .ok u ∧
              (θ.validate t u st.rule.name).outcome = .ok () ∧
              (θ.validate t u st.rule.name).rule = some st.rule := by
  have hhosted := hosted_executeAll (hosted_fresh L) cs
  have hsound := (sound_executeAll (sound_fresh L) cs).1
  generalize ((fresh L).executeAll cs).2 = s at hhosted hsound
  refine ⟨hhosted.unselected, fun name hs => ?_⟩
  obtain ⟨θ, hθ, hhosts⟩ := hhosted.selected name hs
  refine ⟨θ, hθ, hhosts.active, fun π hπ => ⟨hhosts.theory π hπ, hhosts.laws π hπ, ?_⟩⟩
  intro i st hst
  obtain ⟨-, θ', hθ', hw⟩ := hsound.running π hπ
  rw [hhosts.theory π hπ, hθ] at hθ'
  obtain rfl := Option.some.inj hθ'
  exact hw.justified.validate hst

/-- A proof of one step by a law, with another law declared behind its beginning and commands that
fail behind the step. -/
theorem parts_agree_of_absorption :
    let cs : List Command := [.theory "set_theory",
      .law ⟨"Absorption", none, "(x ∪ y) ∩ x", "x", none⟩, .prove "(A ∪ B) ∩ A" "A",
      .law ⟨"Later", none, "x", "y", none⟩, .step "Absorption" "A", .step "Later" "B",
      .theory "number_theory"]
    ∃ L π θ st t u, Library.ofPresentations Library.shipped = .ok L ∧
      ((fresh L).executeAll cs).2.proof = some π ∧
      ((fresh L).executeAll cs).2.library.get? "set_theory" = some θ ∧
      θ.active = some π.problem.id ∧ π.problem.customLaws = some θ.customLaws ∧
      π.steps[0]? = some st ∧ θ.read π.problem.lhs = .ok t ∧ θ.read st.expression = .ok u ∧
      (θ.validate t u st.rule.name).outcome = .ok () := by
  intro cs
  have hrun : (Library.ofPresentations Library.shipped).toOption.any (fun L =>
      ((fresh L).executeAll cs).2.selected == some "set_theory" &&
        ((fresh L).executeAll cs).2.proof.any (·.steps.length == 1)) = true := by
    decide +kernel
  obtain ⟨L, hL⟩ := Library.exists_ofPresentations_shipped
  rw [hL, Except.toOption, Option.any_some, Bool.and_eq_true, beq_iff_eq, Option.any_eq_true] at hrun
  obtain ⟨hselected, π, hπ, hone⟩ := hrun
  obtain ⟨θ, hθ, hactive, hall⟩ := (parts_agree L cs).2 "set_theory" hselected
  obtain ⟨-, hlaws, hsteps⟩ := hall π hπ
  have hlength : π.steps.length = 1 := beq_iff_eq.mp hone
  have hst : π.steps[0]? = some π.steps[0] := List.getElem?_eq_getElem (by omega)
  obtain ⟨t, u, ht, hu, ho, -⟩ := hsteps 0 _ hst
  rw [hπ] at hactive
  exact ⟨L, π, θ, π.steps[0], t, u, hL, hπ, hθ, hactive, hlaws, hst, ht, hu, ho⟩

end Session

end Equational
