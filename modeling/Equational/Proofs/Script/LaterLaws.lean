import Equational.Proofs.Script.Agreement
import Equational.Proofs.Script.Failures
import Equational.Proofs.Theory.LawNames

/-! What a law declared while a proof is being written does to that proof. The theory takes it up
only when the next proof begins, but the session looks it up at once, and a step that gives its name
is sent to a rule that the theory does not have. Only an earlier law of the same name prevents
this. -/

namespace Equational.Session

/-- The session with one more law. -/
def declare (s : Session) (l : Law) : Session := { s with laws := s.laws ++ [l] }

/-- Steps, each by the name and the expression that it gives. -/
def stepCommands (steps : List (String × String)) : List Command :=
  steps.map fun x => .step x.1 x.2

/-- What one more law would be looked up for, an earlier one is. -/
def Overlooks (s : Session) (l : Law) (name : String) : Prop :=
  name = l.name → ∃ k ∈ s.laws, k.name = name

variable {s s' : Session} {l : Law} {rule expression : String} {st : ProofStep} {π : Proof}

theorem ruleName_declare (h : s.Overlooks l rule) (p : Problem) :
    (s.declare l).ruleName p rule = s.ruleName p rule := by
  simp only [ruleName, declare, List.find?_append]
  cases hfind : s.laws.find? (·.name == rule) with
  | some k => rfl
  | none =>
    have hne : l.name ≠ rule := by
      intro hname
      obtain ⟨k, hk, hkname⟩ := h hname.symm
      simpa [hkname] using List.find?_eq_none.mp hfind k hk
    rw [Option.none_or, List.find?_cons_of_neg (by simpa using hne), List.find?_nil]

/-- A law that no earlier one stands in front of is what its name is looked up as. -/
theorem ruleName_declare_self (h : ∀ k ∈ s.laws, k.name ≠ l.name) (p : Problem) :
    s.ruleName p l.name = l.name ∧ (s.declare l).ruleName p l.name = l.ruleName p.id := by
  have hnone : s.laws.find? (·.name == l.name) = none :=
    List.find?_eq_none.mpr fun k hk => by simpa using h k hk
  constructor
  · rw [ruleName, hnone]
  · rw [ruleName, declare, List.find?_append, hnone, Option.none_or,
      List.find?_cons_of_pos (by simp)]

/-- Steps look at the laws of a session for the name of their rule only. -/
theorem execute_step_declare (h : s.Overlooks l rule) (expression : String) :
    (s.declare l).execute (.step rule expression) =
      ((s.execute (.step rule expression)).1,
        (s.execute (.step rule expression)).2.declare l) := by
  have hname := ruleName_declare h
  obtain ⟨library, selected, laws, proof, started⟩ := s
  simp only [declare] at hname
  simp only [execute, addStep, declare, hname]
  cases selected with
  | none => rfl
  | some name =>
    dsimp only
    cases library.get name with
    | error e => rfl
    | ok θ =>
      cases proof with
      | none => rfl
      | some π =>
        dsimp only
        split <;> rfl

theorem laws_execute_step (s : Session) (rule expression : String) :
    (s.execute (.step rule expression)).2.laws = s.laws := by
  rcases hx : s.execute (.step rule expression) with ⟨r, s'⟩
  cases r with
  | error e => rw [eq_of_execute_error hx]
  | ok o => cases executes_of_execute hx with | step hs hθ hπ hj => rfl

theorem Overlooks.execute_step {name : String} :
    (s.execute (.step rule expression)).2.Overlooks l name ↔ s.Overlooks l name := by
  rw [Overlooks, Overlooks, laws_execute_step]

/-- Steps none of which is looked up as the law go on as without it. -/
theorem executeAll_declare {steps : List (String × String)} (h : ∀ x ∈ steps, s.Overlooks l x.1) :
    (s.declare l).executeAll (stepCommands steps) =
      ((s.executeAll (stepCommands steps)).1,
        (s.executeAll (stepCommands steps)).2.declare l) := by
  induction steps generalizing s with
  | nil => rfl
  | cons x steps ih =>
    obtain ⟨hx, hsteps⟩ := List.forall_mem_cons.mp h
    have htail := ih (s := (s.execute (.step x.1 x.2)).2) fun y hy =>
      Overlooks.execute_step.mpr (hsteps y hy)
    simp only [stepCommands, List.map_cons, executeAll, execute_step_declare hx] at htail ⊢
    rw [htail]

theorem Executes.name_of_step (h : s.Executes (.step rule expression) (.stepAdded st) s')
    (hπ : s.proof = some π) : st.rule.name = s.ruleName π.problem rule := by
  obtain ⟨name, θ, d, -, -, hd, hrule⟩ := h.exists_schema hπ
  rw [← hrule]
  exact Theory.name_of_schema? hd

/-- A step that is accepted by the rule of its own name is not recorded so once a law of that name
has been declared. -/
theorem overlooks_of_execute_declare
    (hok : (s.execute (.step rule expression)).1.isOk = true)
    (heq : ((s.declare l).execute (.step rule expression)).1 =
      (s.execute (.step rule expression)).1) : s.Overlooks l rule := by
  rintro rfl
  apply Classical.byContradiction
  intro hnone
  rcases hx : s.execute (.step l.name expression) with ⟨r, s₁⟩
  rcases hy : (s.declare l).execute (.step l.name expression) with ⟨r', s₂⟩
  rw [hx, hy] at heq
  rw [hx] at hok
  obtain rfl : r' = r := heq
  cases r' with
  | error e => cases hok
  | ok o =>
    have hdirect := executes_of_execute hx
    have hlater := executes_of_execute hy
    obtain ⟨st, π, rfl, hπ⟩ : ∃ st π, o = .stepAdded st ∧ s.proof = some π := by
      cases hdirect with | step hs hθ hπ hj => exact ⟨_, _, rfl, hπ⟩
    obtain ⟨hself, hmade⟩ := ruleName_declare_self (s := s) (l := l)
      (fun k hk hname => hnone ⟨k, hk, hname⟩) π.problem
    have hbefore := hdirect.name_of_step hπ
    have hafter := hlater.name_of_step (π := π) hπ
    rw [hself] at hbefore
    rw [hmade, hbefore] at hafter
    exact l.ruleName_ne_name π.problem.id hafter.symm

/-- Accepted steps show a law that has been declared before them as soon as one of them is looked up
as it. -/
theorem overlooks_of_executeAll_declare {steps : List (String × String)}
    (hok : ∀ r ∈ (s.executeAll (stepCommands steps)).1, r.isOk = true)
    (heq : ((s.declare l).executeAll (stepCommands steps)).1 =
      (s.executeAll (stepCommands steps)).1) :
    ∀ x ∈ steps, s.Overlooks l x.1 := by
  induction steps generalizing s with
  | nil => intro x hx; cases hx
  | cons x steps ih =>
    simp only [stepCommands, List.map_cons, executeAll, List.cons.injEq] at heq
    simp only [stepCommands, List.map_cons, executeAll, List.forall_mem_cons] at hok
    have hx : s.Overlooks l x.1 := overlooks_of_execute_declare hok.1 heq.1
    -- up to here the two sessions differ in their laws only
    rw [execute_step_declare hx] at heq
    have htail := ih hok.2 heq.2
    intro y hy
    rcases List.mem_cons.mp hy with rfl | hy
    · exact hx
    · exact Overlooks.execute_step.mp (htail y hy)

/-- In a proof that has been begun in whatever way, steps have the results that they would have
without a law that is declared before them, and the same proof is left, if none of them gives the
name of the law or an earlier law has that name too. For steps that are accepted without the law
there is no other case in which the results are the same. -/
theorem steps_behind_later_law (L : Library) (cs : List Command) (l : Law)
    (steps : List (String × String))
    (hproof : ((fresh L).executeAll cs).2.proof.isSome = true) :
    let s := ((fresh L).executeAll cs).2
    let direct := s.executeAll (stepCommands steps)
    let later := s.executeAll (.law l :: stepCommands steps)
    ((∀ x ∈ steps, s.Overlooks l x.1) →
      later.1 = .ok .lawAdded :: direct.1 ∧ later.2.proof = direct.2.proof) ∧
    ((∀ r ∈ direct.1, r.isOk = true) →
      (later.1 = .ok .lawAdded :: direct.1 ↔ ∀ x ∈ steps, s.Overlooks l x.1)) := by
  intro s direct later
  have hhosted : s.Hosted := hosted_executeAll (hosted_fresh L) cs
  obtain ⟨name, hs⟩ : ∃ name, s.selected = some name := by
    rw [← Option.isSome_iff_exists, ← Option.ne_none_iff_isSome]
    intro hnone
    rw [hhosted.unselected hnone] at hproof
    cases hproof
  have hlater : later = (.ok .lawAdded :: ((s.declare l).executeAll (stepCommands steps)).1,
      ((s.declare l).executeAll (stepCommands steps)).2) := by
    have hlaw : s.execute (.law l) = (.ok .lawAdded, s.declare l) :=
      execute_eq_ok_iff.mpr (.law hs)
    simp only [later, executeAll, hlaw]
  rw [hlater]
  have hsame : (∀ x ∈ steps, s.Overlooks l x.1) →
      ((s.declare l).executeAll (stepCommands steps)) = (direct.1, direct.2.declare l) :=
    executeAll_declare
  refine ⟨fun h => ?_, fun hok => ⟨fun h => ?_, fun h => ?_⟩⟩
  · rw [hsame h]
    exact ⟨rfl, rfl⟩
  · exact overlooks_of_executeAll_declare hok (List.cons.inj h).2
  · rw [hsame h]

/-- A law of the name of an earlier one, between the beginning of a proof and its first step. -/
theorem steps_behind_later_law_of_absorption :
    let cs : List Command := [.theory "set_theory",
      .law ⟨"Absorption", none, "(x ∪ y) ∩ x", "x", none⟩, .prove "(A ∪ B) ∩ (A ∩ A)" "A"]
    let l : Law := ⟨"Absorption", none, "(x ∩ y) ∪ x", "x", none⟩
    let steps := [("idem2", "(A ∪ B) ∩ A"), ("Absorption", "A")]
    ∃ L s, Library.ofPresentations Library.shipped = .ok L ∧ ((fresh L).executeAll cs).2 = s ∧
      s.proof.isSome = true ∧ (∀ x ∈ steps, s.Overlooks l x.1) ∧
      (s.executeAll (.law l :: stepCommands steps)).1 =
        .ok .lawAdded :: (s.executeAll (stepCommands steps)).1 ∧
      (s.executeAll (.law l :: stepCommands steps)).2.proof =
        (s.executeAll (stepCommands steps)).2.proof ∧
      (s.executeAll (stepCommands steps)).2.proof.any (·.steps.length == 2) = true := by
  intro cs l steps
  obtain ⟨L, hL, hrun⟩ := Library.exists_shipped_of_any (f := fun L =>
      let s := ((fresh L).executeAll cs).2
      s.proof.isSome && s.laws.map (·.name) == ["Absorption"] &&
        (s.executeAll (stepCommands steps)).2.proof.any (·.steps.length == 2)) (by decide +kernel)
  simp only [Bool.and_eq_true, beq_iff_eq] at hrun
  obtain ⟨⟨hproof, hlaws⟩, hlength⟩ := hrun
  have hover : ∀ x ∈ steps, ((fresh L).executeAll cs).2.Overlooks l x.1 := by
    intro x _ hx
    have hmem : l.name ∈ ((fresh L).executeAll cs).2.laws.map (·.name) := by
      rw [hlaws]
      exact List.mem_singleton_self _
    rw [hx]
    exact List.mem_map.mp hmem
  obtain ⟨hresults, hsame⟩ := (steps_behind_later_law L cs l steps hproof).1 hover
  exact ⟨L, _, hL, rfl, hproof, hover, hresults, hsame, hlength⟩

/-- A step by a rule of the theory of sets, and a law of the name of that rule declared before
it. -/
theorem later_law_stops_step :
    let cs : List Command := [.theory "set_theory", .prove "A ∪ A" "A"]
    let l : Law := ⟨"idem1", none, "x ∩ x", "x", none⟩
    ∃ L s st, Library.ofPresentations Library.shipped = .ok L ∧
      ((fresh L).executeAll cs).2 = s ∧ s.proof.isSome = true ∧
      (s.execute (.step "idem1" "A")).1 = .ok (.stepAdded st) ∧
      (s.execute (.law l)).1 = .ok .lawAdded ∧
      ((s.execute (.law l)).2.execute (.step "idem1" "A")).1 =
        .error (.proof (.step (.unknownRule "custom_0.1_idem1"))) ∧
      (s.execute (.step "idem1" "A")).2.proof.map (·.steps) = some [st] ∧
      ((s.execute (.law l)).2.execute (.step "idem1" "A")).2.proof.map (·.steps) = some [] := by
  intro cs l
  obtain ⟨L, hL, hrun⟩ := Library.exists_shipped_of_any (f := fun L =>
      let s := ((fresh L).executeAll cs).2
      let st : ProofStep := ⟨"A", ⟨"idem1", "Idempotence of Union", "x ∪ x", "x", 2⟩⟩
      s.proof.isSome &&
        (s.execute (.step "idem1" "A")).1.toOption == some (.stepAdded st) &&
        (s.execute (.law l)).1.toOption == some .lawAdded &&
        error? ((s.execute (.law l)).2.execute (.step "idem1" "A")).1 ==
          some (.proof (.step (.unknownRule "custom_0.1_idem1"))) &&
        (s.execute (.step "idem1" "A")).2.proof.map (·.steps) == some [st] &&
        ((s.execute (.law l)).2.execute (.step "idem1" "A")).2.proof.map (·.steps) ==
          some []) (by decide +kernel)
  simp only [Bool.and_eq_true, beq_iff_eq, toOption_eq_some_iff, error?_eq_some_iff] at hrun
  obtain ⟨⟨⟨⟨⟨hproof, hstep⟩, hlaw⟩, hlater⟩, hdirect⟩, hnone⟩ := hrun
  exact ⟨L, _, _, hL, rfl, hproof, hstep, hlaw, hlater, hdirect, hnone⟩

end Equational.Session
