import Equational.Proofs.Script.Steps
import Equational.Proofs.Semantics.Boolean

/-! What scripts prove is true. The theory of a running proof always has the rules listed for it and
the laws that the proof was begun with, so each of its steps is justified by these, and what comes
later in a script changes nothing about a proof that has been handed back. -/

namespace Equational

/-- A proof that has been written in a theory with the rules listed for it and the laws of the
problem available. -/
structure Proof.WrittenIn (π : Proof) (θ : Theory) : Prop where
  schemas : ∃ laws, π.problem.customLaws = some laws ∧
    θ.schemas =
      Theory.readable θ.signature .theory θ.listed ++ θ.lawSchemas π.problem.id laws
  justified : π.Justified θ

/-- A proof that has been written in a theory of a library, whatever problems had been loaded. -/
def Proof.Genuine (L : Library) (π : Proof) : Prop :=
  ∃ θ, (L.get? π.problem.theory).map Theory.presented = some θ.presented ∧ π.WrittenIn θ

/-- What holds in a session that began with a library: its theories are still presented as they
were, and the running proof has been written in the selected one. -/
structure Session.Sound (L : Library) (s : Session) : Prop where
  presented : ∀ name, (s.library.get? name).map Theory.presented =
    (L.get? name).map Theory.presented
  running : ∀ π, s.proof = some π → s.selected = some π.problem.theory ∧
    ∃ θ, s.library.get? π.problem.theory = some θ ∧ π.WrittenIn θ

namespace Session

variable {L : Library} {s : Session}

theorem sound_fresh (L : Library) : (fresh L).Sound L where
  presented _ := rfl
  running _ h := by cases h

theorem Sound.genuine (h : s.Sound L) {π : Proof} (hπ : s.proof = some π) : π.Genuine L := by
  obtain ⟨-, θ, hθ, hw⟩ := h.running π hπ
  refine ⟨θ, ?_, hw⟩
  rw [← h.presented, hθ, Option.map_some]

theorem sound_of_executes {s' : Session} {c : Command} {o : Outcome} (h : s.Sound L)
    (hc : s.Executes c o s') : s'.Sound L := by
  cases hc with
  | @theory name θ hθ =>
    exact ⟨Library.presented_put h.presented hθ θ.presented_clear, fun π hπ => by cases hπ⟩
  | law hs => exact ⟨h.presented, h.running⟩
  | @prove lhs rhs name θ hs hθ =>
    let p := s.problem name lhs rhs
    refine ⟨Library.presented_put h.presented hθ (θ.presented_start p), fun π hπ => ?_⟩
    obtain rfl := Option.some.inj hπ
    refine ⟨hs, θ.start p, Library.get?_put_self _ _ _, ?_⟩
    refine ⟨⟨s.laws, rfl, ?_⟩, Proof.justified_ofProblem p _⟩
    have hp := Theory.presented_eq_iff.mp (θ.presented_start p)
    rw [Theory.schemas_start θ rfl, Theory.lawSchemas, Theory.lawSchemas, Theory.name,
      Theory.name, hp.1, hp.2.1, hp.2.2]
    rfl
  | @step rule expression name θ π st hs hθ hπ hj =>
    obtain ⟨hsel, θ', hθ', hw⟩ := h.running π hπ
    obtain rfl : name = π.problem.theory := Option.some.inj (hs.symm.trans hsel)
    obtain rfl : θ' = θ := Option.some.inj (hθ'.symm.trans hθ)
    refine ⟨h.presented, fun ρ hρ => ?_⟩
    obtain rfl := Option.some.inj hρ
    exact ⟨hsel, θ', hθ', hw.schemas, Proof.justified_append hw.justified hj⟩

/-- A run keeps a session sound, and all proofs that it hands back are genuine. -/
theorem sound_executeAll (h : s.Sound L) (cs : List Command) :
    (s.executeAll cs).2.Sound L ∧ ∀ π ∈ endedProofs (s.executeAll cs).1, π.Genuine L :=
  executeAll_induction (fun _ _ _ _ hs hc => sound_of_executes hs hc)
    (fun _ _ hs hπ => hs.genuine hπ) cs h

end Session

/-- A law holds in the theory, and both of its sides can be read, as those of the equation. -/
def Theory.InForce (θ : Theory) (l : Law) (e : Equation) : Prop :=
  l.appliesTo θ.name = true ∧ θ.read l.lhs = .ok e.lhs ∧ θ.read l.rhs = .ok e.rhs

theorem Theory.inForce_iff_of_presented {θ θ' : Theory} (h : θ.presented = θ'.presented) {l : Law}
    {e : Equation} : θ.InForce l e ↔ θ'.InForce l e := by
  rw [InForce, InForce, read_eq_of_presented h, name, name, (presented_eq_iff.mp h).1]

/-- In a theory that is presented as a shipped one a valuation makes all rules hold that a proof can
use, if it does so for the laws of the problem that are in force. -/
theorem Proof.WrittenIn.holds {π : Proof} {θ : Theory} (hw : π.WrittenIn θ) {p : Presentation}
    (hp : p ∈ Library.shipped) (hl : Signature.Lawful p.symbols)
    (hθ : θ.presented = (Theory.ofLawful p hl).presented) {v : Char → Bool}
    (hv : ∀ l ∈ π.problem.customLaws.getD [], ∀ e, θ.InForce l e → e.Holds boolean v) :
    ∀ d ∈ θ.schemas, d.equation.Holds boolean v := by
  obtain ⟨laws, hlaws, hs⟩ := hw.schemas
  obtain ⟨-, hσ, hr⟩ := Theory.presented_eq_iff.mp hθ
  intro d hd
  rw [hs] at hd
  rcases List.mem_append.mp hd with hd | hd
  · rw [hσ, hr] at hd
    exact Equation.holds_of_isTautology (Library.isTautology_of_shipped p hp hl d hd) v
  · obtain ⟨l, hm, ha, ht, hu⟩ := Theory.exists_law_of_mem hd
    rw [hlaws] at hv
    exact hv l hm d.equation ⟨ha, ht, hu⟩

/-- A complete proof that is genuine in a library of the shipped theories proves an equation between
truth values, wherever the laws in force hold. -/
theorem Proof.Genuine.eval_eq {L : Library} (hL : Library.ofPresentations Library.shipped = .ok L)
    {π : Proof} (hπ : π.Genuine L) {θ : Theory}
    (hθ : (L.get? π.problem.theory).map Theory.presented = some θ.presented)
    (hc : π.isComplete θ = true) :
    ∃ t u, θ.read π.problem.lhs = .ok t ∧ θ.read π.problem.rhs = .ok u ∧
      ∀ v, (∀ l ∈ π.problem.customLaws.getD [], ∀ e, θ.InForce l e → e.Holds boolean v) →
        t.eval boolean v = u.eval boolean v := by
  obtain ⟨θ', hθ', hw⟩ := hπ
  have hpres : θ'.presented = θ.presented := Option.some.inj (hθ'.symm.trans hθ)
  obtain ⟨θ₀, hget, hp₀⟩ := Option.map_eq_some_iff.mp hθ'
  obtain ⟨p, hp, hof⟩ := Library.exists_presentation_of_get? hL hget
  have hl : Signature.Lawful p.symbols := Library.lawful_of_shipped p hp
  obtain rfl : Theory.ofLawful p hl = θ₀ :=
    Except.ok.inj ((Theory.ofPresentation_of_lawful hl).symm.trans hof)
  have hc' : π.isComplete θ' = true := by
    rw [Proof.isComplete_iff] at hc ⊢
    rwa [Theory.read_eq_of_presented hpres]
  obtain ⟨t, u, ht, hu, heval⟩ := Proof.eval_of_isComplete hw.justified hc'
  rw [Theory.read_eq_of_presented hpres] at ht hu
  refine ⟨t, u, ht, hu, fun v hv => heval boolean v ?_⟩
  apply hw.holds hp hl hp₀.symm
  intro l hm e he
  exact hv l hm e ((Theory.inForce_iff_of_presented hpres).mp he)

/-- Whatever commands are carried out with the shipped theories, failing ones included: the theory
of every proof that is running or has been handed back is still there, and if the proof is complete
its two sides can be read and have the same truth value under every valuation that makes the laws in
force hold, so under all valuations if there are none. -/
theorem Session.proved_equations_hold :
    ∃ L, Library.ofPresentations Library.shipped = .ok L ∧ ∀ (cs : List Command) (π : Proof),
      ((fresh L).executeAll cs).2.proof = some π ∨
        π ∈ endedProofs ((fresh L).executeAll cs).1 →
      ∃ θ, ((fresh L).executeAll cs).2.library.get? π.problem.theory = some θ ∧
        (π.isComplete θ = true →
          ∃ t u, θ.read π.problem.lhs = .ok t ∧ θ.read π.problem.rhs = .ok u ∧
            (∀ v, (∀ l ∈ π.problem.customLaws.getD [], ∀ e, θ.InForce l e → e.Holds boolean v) →
              t.eval boolean v = u.eval boolean v) ∧
            ((∀ l ∈ π.problem.customLaws.getD [], ∀ e, ¬ θ.InForce l e) →
              ∀ v, t.eval boolean v = u.eval boolean v)) := by
  obtain ⟨L, hL⟩ := Library.exists_ofPresentations_shipped
  refine ⟨L, hL, fun cs π hπ => ?_⟩
  obtain ⟨hs, hended⟩ := sound_executeAll (sound_fresh L) cs
  have hgen : π.Genuine L := by
    rcases hπ with hrun | hend
    · exact hs.genuine hrun
    · exact hended π hend
  obtain ⟨θ, hget⟩ : ∃ θ, ((fresh L).executeAll cs).2.library.get? π.problem.theory = some θ := by
    obtain ⟨θ', hθ', -⟩ := hgen
    rw [← hs.presented] at hθ'
    obtain ⟨θ, hget, -⟩ := Option.map_eq_some_iff.mp hθ'
    exact ⟨θ, hget⟩
  refine ⟨θ, hget, fun hc => ?_⟩
  have hθ : (L.get? π.problem.theory).map Theory.presented = some θ.presented := by
    rw [← hs.presented, hget, Option.map_some]
  obtain ⟨t, u, ht, hu, heval⟩ := hgen.eval_eq hL hθ hc
  refine ⟨t, u, ht, hu, heval, fun hnone v => heval v ?_⟩
  intro l hm e he
  exact absurd he (hnone l hm e)

/-- A proof of one step in the theory of sets, without laws. -/
theorem Session.proved_equations_hold_of_idempotence :
    ∃ L π θ, Library.ofPresentations Library.shipped = .ok L ∧
      ((fresh L).executeAll
        [.theory "set_theory", .prove "A ∪ A" "A", .step "idem1" "A"]).2.proof = some π ∧
      π.isComplete θ = true ∧ ∃ t u, θ.read π.problem.lhs = .ok t ∧ θ.read π.problem.rhs = .ok u ∧
        ∀ v, t.eval boolean v = u.eval boolean v := by
  let cs : List Command := [.theory "set_theory", .prove "A ∪ A" "A", .step "idem1" "A"]
  have hrun : (Library.ofPresentations Library.shipped).toOption.any (fun L =>
      ((fresh L).executeAll cs).2.proof.any fun π => π.problem.customLaws == some [] &&
        (((fresh L).executeAll cs).2.library.get? π.problem.theory).any π.isComplete) = true := by
    decide +kernel
  obtain ⟨L, hL, hall⟩ := proved_equations_hold
  rw [hL, Except.toOption, Option.any_some, Option.any_eq_true] at hrun
  obtain ⟨π, hπ, h⟩ := hrun
  rw [Bool.and_eq_true, beq_iff_eq, Option.any_eq_true] at h
  obtain ⟨hlaws, θ, hθ, hc⟩ := h
  obtain ⟨θ', hθ', hsound⟩ := hall cs π (.inl hπ)
  obtain rfl : θ' = θ := Option.some.inj (hθ'.symm.trans hθ)
  obtain ⟨t, u, ht, hu, -, heval⟩ := hsound hc
  refine ⟨L, π, θ', hL, hπ, hc, t, u, ht, hu, heval ?_⟩
  rw [hlaws]
  simp

end Equational
