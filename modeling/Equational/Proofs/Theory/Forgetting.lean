import Equational.Proof
import Equational.Proofs.Theory.History

/-! What a theory has been through leaves laws behind, which stay stored for their problems. Nothing
that is asked of a theory shows them unless their problem is active, and whoever begins a problem
stores its laws anew. So two theories of one presentation answer alike as soon as the same problem
has been begun in both. -/

namespace Equational

namespace Theory

/-- The theories differ at most in the laws stored for problems that are not active. -/
structure Alike (θ θ' : Theory) : Prop where
  presented : θ.presented = θ'.presented
  active : θ.active = θ'.active
  schemas : θ.schemas = θ'.schemas
  customLaws : θ.customLaws = θ'.customLaws

/-- The schemas are those that are found when all rules are read anew. -/
def UpToDate (θ : Theory) : Prop := θ.schemas = θ.compiled

variable {θ θ' : Theory}

theorem upToDate_switchAll {p : Presentation} (h : ofPresentation p = .ok θ) (ss : List Switch) :
    (θ.switchAll ss).UpToDate :=
  ((follows_ofPresentation h).switchAll ss).schemas

theorem presented_switchAll {p : Presentation} (h : ofPresentation p = .ok θ) (ss : List Switch) :
    (θ.switchAll ss).presented = θ.presented :=
  ((follows_ofPresentation h).switchAll ss).presented

theorem UpToDate.clear (h : θ.UpToDate) : θ.clear.UpToDate := schemas_clear h

theorem UpToDate.start (h : θ.UpToDate) (p : Problem) : (θ.start p).UpToDate := by
  rw [Theory.start]
  split
  · exact schemas_load _ _ _
  · exact h.clear

/-- Theories that are up to date are alike if the same problem is active with the same laws. -/
theorem UpToDate.alike (h : θ.UpToDate) (h' : θ'.UpToDate) (hp : θ.presented = θ'.presented)
    (ha : θ.active = θ'.active) (hl : θ.customLaws = θ'.customLaws) : θ.Alike θ' where
  presented := hp
  active := ha
  schemas := by
    obtain ⟨hinfo, hσ, hlisted⟩ := presented_eq_iff.mp hp
    rw [h, h', compiled, compiled, activeSchemas, activeSchemas, ha, hl, hσ, hlisted]
    cases θ'.active with
    | none => rfl
    | some problem => simp only [lawSchemas, name, hinfo, hσ]
  customLaws := hl

theorem UpToDate.alike_clear (h : θ.UpToDate) (h' : θ'.UpToDate)
    (hp : θ.presented = θ'.presented) : θ.clear.Alike θ'.clear :=
  h.clear.alike h'.clear hp rfl rfl

theorem active_start (θ : Theory) (p : Problem) :
    (θ.start p).active = p.customLaws.map fun _ => p.id := by
  rw [start]
  cases p.customLaws <;> rfl

theorem customLaws_start (θ : Theory) (p : Problem) :
    (θ.start p).customLaws = p.customLaws.getD [] := by
  rw [start]
  cases p.customLaws with
  | none => rfl
  | some laws => exact customLaws_load _ _ _

theorem UpToDate.alike_start (h : θ.UpToDate) (h' : θ'.UpToDate)
    (hp : θ.presented = θ'.presented) (p : Problem) : (θ.start p).Alike (θ'.start p) := by
  apply (h.start p).alike (h'.start p)
  · rw [presented_start, presented_start, hp]
  · rw [active_start, active_start]
  · rw [customLaws_start, customLaws_start]

namespace Alike

/-- The stored laws are all that two theories that are alike differ in. -/
theorem eq_with_stored (h : θ.Alike θ') : θ' = { θ with stored := θ'.stored } := by
  obtain ⟨hinfo, hσ, hlisted⟩ := presented_eq_iff.mp h.presented
  rw [hinfo, hσ, hlisted, h.active, h.schemas]

theorem available_eq (h : θ.Alike θ') : θ.available = θ'.available := by
  rw [h.eq_with_stored]
  rfl

theorem rule?_eq (h : θ.Alike θ') (name : String) : θ.rule? name = θ'.rule? name := by
  rw [h.eq_with_stored]
  rfl

theorem validate_eq (h : θ.Alike θ') (t u : Term) (name : String) :
    θ.validate t u name = θ'.validate t u name := by
  rw [h.eq_with_stored]
  rfl

theorem justify_eq (h : θ.Alike θ') (p : Problem) (previous expression name : String) :
    Proof.justify p θ previous expression name = Proof.justify p θ' previous expression name := by
  rw [h.eq_with_stored]
  rfl

end Alike

/-- Whatever two theories of one presentation have been through, after the same problem has been
begun in both they have the same problem active, with the same laws, the same rules are available,
together, by category and by level, a name is looked up to the same rule, and every step gets the
same report. The active problem is the one begun, if it lists laws, and the laws are those it
lists. -/
theorem start_forgets {p : Presentation} (h : ofPresentation p = .ok θ) (ss ss' : List Switch)
    (q : Problem) :
    let θ₁ := (θ.switchAll ss).start q
    let θ₂ := (θ.switchAll ss').start q
    (θ₁.active = θ₂.active ∧ θ₁.active = q.customLaws.map fun _ => q.id) ∧
    (θ₁.customLaws = θ₂.customLaws ∧ θ₁.customLaws = q.customLaws.getD []) ∧
    θ₁.available = θ₂.available ∧ θ₁.rulesByCategory = θ₂.rulesByCategory ∧
    (∀ level, θ₁.rulesOfLevel level = θ₂.rulesOfLevel level) ∧
    (∀ name, θ₁.rule? name = θ₂.rule? name) ∧
    ∀ (t u : Term) (name : String), θ₁.validate t u name = θ₂.validate t u name := by
  intro θ₁ θ₂
  have hpresented : (θ.switchAll ss).presented = (θ.switchAll ss').presented := by
    rw [presented_switchAll h, presented_switchAll h]
  have halike : θ₁.Alike θ₂ :=
    (upToDate_switchAll h ss).alike_start (upToDate_switchAll h ss') hpresented q
  refine ⟨⟨halike.active, active_start _ q⟩, ⟨halike.customLaws, customLaws_start _ q⟩,
    halike.available_eq, ?_, fun level => ?_, halike.rule?_eq, halike.validate_eq⟩
  · rw [rulesByCategory, rulesByCategory, halike.available_eq]
  · rw [rulesOfLevel, rulesOfLevel, halike.available_eq]

/-- Two histories of the theory of sets, one of which has loaded other laws for the problem and has
been cleared. What they have stored for the other problem is still there. -/
theorem start_forgets_of_absorption :
    let absorption : Law := ⟨"Absorption", none, "(x ∪ y) ∩ x", "x", none⟩
    let union : Law := ⟨"Union", none, "x ∪ y", "x", none⟩
    let q : Problem := { (default : Problem) with
      week := 3, number := 2, customLaws := some [absorption] }
    let ss : List Switch := [.load "3.2" [union], .clear, .load "1.1" [union]]
    let ss' : List Switch := [.start q]
    let θ₁ := (sets.switchAll ss).start q
    let θ₂ := (sets.switchAll ss').start q
    ofPresentation .sets = .ok sets ∧ θ₁.stored.get? "1.1" = some [union] ∧
      θ₂.stored.get? "1.1" = none ∧ θ₁.active = some "3.2" ∧ θ₁.customLaws = [absorption] ∧
      θ₁.available = θ₂.available ∧ θ₁.rulesByCategory = θ₂.rulesByCategory ∧
      θ₁.rulesOfLevel 99 = θ₂.rulesOfLevel 99 ∧ θ₁.rule? "idem1" = θ₂.rule? "idem1" ∧
      θ₁.validate (.leaf 'A') (.leaf 'B') "custom_3.2_absorption" =
        θ₂.validate (.leaf 'A') (.leaf 'B') "custom_3.2_absorption" := by
  intro absorption union q ss ss' θ₁ θ₂
  obtain ⟨⟨-, hactive⟩, ⟨-, hlaws⟩, havailable, hcategory, hlevel, hrule, hvalidate⟩ :=
    start_forgets ofPresentation_sets ss ss' q
  have hid : q.customLaws.map (fun _ => q.id) = some "3.2" := by decide +kernel
  exact ⟨ofPresentation_sets, by decide +kernel, by decide +kernel, hactive.trans hid, hlaws,
    havailable, hcategory, hlevel 99, hrule "idem1", hvalidate _ _ _⟩

end Theory

end Equational
