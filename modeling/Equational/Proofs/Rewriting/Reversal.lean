import Equational.Proofs.Rewriting.Refusals

namespace Equational

namespace Equation

variable {e : Equation} {C : Context} {s : Char → Term} {t u : Term}

/-- The same pattern variables occur on both sides. -/
def KeepsVariables (e : Equation) : Prop :=
  ∀ x, x ∈ e.lhs.patternVariables ↔ x ∈ e.rhs.patternVariables

theorem KeepsVariables.flip (h : e.KeepsVariables) : e.flip.KeepsVariables := fun x => (h x).symm

/-- The left side gives a meaning to all variables, so no substitution has to leave any alone. -/
theorem KeepsVariables.keeps (h : e.KeepsVariables) (s : Char → Term) : e.Keeps s :=
  fun x hr hl => absurd ((h x).mpr hr) hl

/-- What one reading rewrites is rewritten back by the other, at the same place and with the same
terms for the variables. -/
theorem RewritesIn.reverse (h : e.KeepsVariables) (hr : e.RewritesIn C s t u) :
    e.flip.RewritesIn C s u t := by
  obtain ⟨-, ht, hu⟩ := hr
  exact ⟨h.flip.keeps s, hu, ht⟩

theorem checkForward_flip (h : e.KeepsVariables) (hne : t ≠ u)
    (hc : e.checkForward t u = .ok ()) : e.flip.checkForward u t = .ok () := by
  obtain ⟨C, s, hr⟩ := exists_rewritesIn_of_checkForward hc
  exact checkForward_of_rewritesIn (hr.reverse h) hne.symm

theorem check_reverse (h : e.KeepsVariables) (hc : e.check t u = .ok ()) :
    e.check u t = .ok () := by
  obtain ⟨hne, hf | hf⟩ := check_eq_ok_iff.mp hc
  · exact check_eq_ok_iff.mpr ⟨hne.symm, .inr (checkForward_flip h hne hf)⟩
  · exact check_eq_ok_iff.mpr ⟨hne.symm, .inl (checkForward_flip h.flip hne hf)⟩

/-- By an equation with the same variables on both sides a step and its reverse have the same
result. Without that condition the reverse of an accepted step may be refused. -/
theorem check_reversible :
    (∀ e : Equation, (∀ x, x ∈ e.lhs.patternVariables ↔ x ∈ e.rhs.patternVariables) →
      ∀ t u, e.check t u = e.check u t) ∧
    ∃ (e : Equation) (t u : Term), e.check t u = .ok () ∧ e.check u t = .error .doesNotApply := by
  constructor
  · intro e h t u
    by_cases htu : t = u
    · rw [htu]
    by_cases hok : e.check t u = .ok ()
    · rw [hok, check_reverse h hok]
    · have hok' : e.check u t ≠ .ok () := fun hr => hok (check_reverse h hr)
      rw [check_eq_error htu hok, check_eq_error (Ne.symm htu) hok', t.differences_comm u]
  · -- absorption, whose second variable occurs on its left side only
    let absorption : Equation :=
      ⟨.node '|' [.leaf 'x', .node '&' [.leaf 'x', .leaf 'y']], .leaf 'x'⟩
    exact ⟨absorption, .node '|' [.leaf 'A', .node '&' [.leaf 'A', .leaf 'B']], .leaf 'A',
      rfl, rfl⟩

/-- Distributivity repeats a variable on its right side. One step by it is taken back, another is
refused in both directions because two places have changed. -/
theorem check_reversible_of_distributivity :
    let e : Equation :=
      ⟨.node '&' [.leaf 'x', .node '|' [.leaf 'y', .leaf 'z']],
        .node '|' [.node '&' [.leaf 'x', .leaf 'y'], .node '&' [.leaf 'x', .leaf 'z']]⟩
    let t : Term := .node '&' [.leaf 'A', .node '|' [.leaf 'B', .leaf 'x']]
    let u : Term := .node '|' [.node '&' [.leaf 'A', .leaf 'B'], .node '&' [.leaf 'A', .leaf 'x']]
    (∀ x, x ∈ e.lhs.patternVariables ↔ x ∈ e.rhs.patternVariables) ∧
      e.check (.node '!' [t]) (.node '!' [u]) = .ok () ∧
      e.check (.node '!' [u]) (.node '!' [t]) = .ok () ∧
      e.check (.node '|' [t, t]) (.node '|' [u, u]) = .error .tooManyChanges ∧
      e.check (.node '|' [u, u]) (.node '|' [t, t]) = .error .tooManyChanges := by
  intro e t u
  have hl : e.lhs.patternVariables = ['x', 'y', 'z'] := rfl
  have hr : e.rhs.patternVariables = ['x', 'y', 'x', 'z'] := rfl
  have hvars (x : Char) : x ∈ e.lhs.patternVariables ↔ x ∈ e.rhs.patternVariables := by
    rw [hl, hr]
    grind
  have hback := check_reversible.1 e hvars
  have hone : e.check (.node '!' [t]) (.node '!' [u]) = .ok () := rfl
  have htwo : e.check (.node '|' [t, t]) (.node '|' [u, u]) = .error .tooManyChanges := rfl
  exact ⟨hvars, hone, (hback _ _).trans hone, htwo, (hback _ _).trans htwo⟩

end Equation

end Equational
