import Equational.Proofs.Rewriting.Matching
import Equational.Rewriting.Step

/-! The check of a step never searches for a place: it goes down the one way on which the two terms
differ. Here that way is shown to miss no place, and the check to accept exactly the terms that
come from one another by rewriting at one place. -/

namespace Equational

/-- A term with a hole at one place. -/
inductive Context where
  | hole
  | node (head : Char) (before : List Term) (inner : Context) (after : List Term)

/-- Puts a term into the hole. -/
def Context.fill : Context → Term → Term
  | hole, t => t
  | node c ts C us, t => .node c (ts ++ C.fill t :: us)

namespace Equation

/-- Variables that the left side does not give a meaning to stay as they are. -/
def Keeps (e : Equation) (s : Char → Term) : Prop :=
  ∀ x ∈ e.rhs.patternVariables, x ∉ e.lhs.patternVariables → s x = .leaf x

theorem close_matchAgainst_eq {e : Equation} {t : Term} {b : Bindings} {s : Char → Term}
    (h : e.lhs.matchAgainst t ∅ = .ok b) (hb : b.Below s) (hs : e.Keeps s) :
    ∀ x ∈ e.rhs.patternVariables, b.close x = s x := by
  intro x hx
  have hbound := Term.isSome_get?_matchAgainst h x
  by_cases hl : x ∈ e.lhs.patternVariables
  · obtain ⟨u, hu⟩ := Option.isSome_iff_exists.mp (hbound.mpr (.inr hl))
    rw [hb x u hu, Bindings.close, hu, Option.getD_some]
  · have hn : b.get? x = none := by
      apply Option.not_isSome_iff_eq_none.mp
      intro hx
      rcases hbound.mp hx with hx | hx
      · cases hx
      · exact hl hx
    rw [hs x hx hl, Bindings.close, hn, Option.getD_none]

/-- Rewriting at the root is replacing an instance of the left side by that of the right side. -/
theorem rewrites_iff {e : Equation} {t u : Term} :
    e.rewrites t u = true ↔
      ∃ s, e.Keeps s ∧ t = e.lhs.instantiate s ∧ u = e.rhs.instantiate s := by
  rw [rewrites]
  constructor
  · intro h
    split at h
    · next b hm =>
      rw [decide_eq_true_eq, Bindings.instantiate_eq_close] at h
      have hi := (Term.exists_matchAgainst_below_iff _ _ _ _).mp ⟨b, hm, b.below_close⟩
      refine ⟨b.close, fun x _ hl => ?_, hi.2.symm, h.symm⟩
      have hn : ¬ (b.get? x).isSome := by
        rw [Term.isSome_get?_matchAgainst hm x]
        rintro (hx | hx)
        · cases hx
        · exact hl hx
      rw [Bindings.close, Option.not_isSome_iff_eq_none.mp hn, Option.getD_none]
    · cases h
  · rintro ⟨s, hs, rfl, rfl⟩
    obtain ⟨b, hm, hb⟩ := (Term.exists_matchAgainst_below_iff e.lhs _ ∅ s).mpr
      ⟨Bindings.below_empty s, rfl⟩
    rw [hm]
    simp only [decide_eq_true_eq]
    rw [Bindings.instantiate_eq_close]
    exact Term.instantiate_congr (close_matchAgainst_eq hm hb hs)

/-- Among the arguments the step is looked for in the only pair that differs. -/
theorem checkForwardList_eq_ok_iff {e : Equation} {ts us : List Term}
    (hl : ts.length = us.length) :
    e.checkForwardList ts us = .ok () ↔
      ∃ before t u after, ts = before ++ t :: after ∧ us = before ++ u :: after ∧ t ≠ u ∧
        e.checkForward t u = .ok () := by
  induction ts generalizing us with
  | nil =>
    rw [checkForwardList]
    · simp
    · simp
  | cons t ts ih =>
    obtain ⟨u, us, rfl⟩ := List.exists_cons_of_length_eq_add_one hl.symm
    rw [checkForwardList]
    by_cases htu : t = u
    · subst htu
      rw [if_pos rfl, ih (by simpa using hl)]
      constructor
      · rintro ⟨before, t', u', after, rfl, rfl, hne, h⟩
        exact ⟨t :: before, t', u', after, rfl, rfl, hne, h⟩
      · rintro ⟨before, t', u', after, ht, hu, hne, h⟩
        cases before with
        | nil =>
          have ht' := (List.cons.inj ht).1
          have hu' := (List.cons.inj hu).1
          exact absurd (ht'.symm.trans hu') hne
        | cons b before =>
          exact ⟨before, t', u', after, (List.cons.inj ht).2, (List.cons.inj hu).2, hne, h⟩
    · rw [if_neg htu]
      constructor
      · intro h
        split at h
        · next hts => exact ⟨[], t, u, ts, rfl, by rw [hts]; rfl, htu, h⟩
        · cases h
      · rintro ⟨before, t', u', after, ht, hu, hne, h⟩
        cases before with
        | nil =>
          obtain ⟨rfl, rfl⟩ := List.cons.inj ht
          obtain ⟨rfl, rfl⟩ := List.cons.inj hu
          rw [if_pos rfl, h]
        | cons b before =>
          have ht' := (List.cons.inj ht).1
          have hu' := (List.cons.inj hu).1
          exact absurd (ht'.trans hu'.symm) htu

/-- What one level of the way down does: it rewrites here, or in the only argument that differs. -/
theorem checkForward_node_eq_ok_iff {e : Equation} {c d : Char} {ts us : List Term} :
    e.checkForward (.node c ts) (.node d us) = .ok () ↔
      e.rewrites (.node c ts) (.node d us) = true ∨
        c = d ∧ ∃ before t u after, ts = before ++ t :: after ∧ us = before ++ u :: after ∧ t ≠ u ∧
          e.checkForward t u = .ok () := by
  rw [checkForward]
  by_cases hr : e.rewrites (.node c ts) (.node d us) = true
  · simp [hr]
  rw [if_neg hr]
  simp only [hr, Bool.false_eq_true, false_or]
  by_cases hl : ts.length = us.length
  · by_cases hc : c = d
    · simp [hc, hl, checkForwardList_eq_ok_iff hl]
    · simp [hc]
  · rw [if_pos (.inr hl)]
    constructor
    · intro h
      cases h
    · rintro ⟨-, before, t, u, after, rfl, rfl, -⟩
      exact absurd (by simp) hl

theorem checkForward_of_rewrites {e : Equation} {t u : Term} (h : e.rewrites t u = true) :
    e.checkForward t u = .ok () := by
  obtain ⟨c, ts⟩ := t
  obtain ⟨d, us⟩ := u
  exact checkForward_node_eq_ok_iff.mpr (.inl h)

/-- The step rewrites one place of `t` from left to right. -/
def RewritesIn (e : Equation) (C : Context) (s : Char → Term) (t u : Term) : Prop :=
  e.Keeps s ∧ t = C.fill (e.lhs.instantiate s) ∧ u = C.fill (e.rhs.instantiate s)

theorem exists_rewritesIn_of_checkForward {e : Equation} {t u : Term}
    (h : e.checkForward t u = .ok ()) : ∃ C s, e.RewritesIn C s t u := by
  induction t generalizing u with
  | node c ts ih =>
    obtain ⟨d, us⟩ := u
    rcases checkForward_node_eq_ok_iff.mp h with hr | ⟨rfl, before, t, u, after, rfl, rfl, -, h⟩
    · obtain ⟨s, hs, ht, hu⟩ := rewrites_iff.mp hr
      exact ⟨.hole, s, hs, ht, hu⟩
    · obtain ⟨C, s, hs, rfl, rfl⟩ := ih t (by simp) h
      exact ⟨.node c before C after, s, hs, rfl, rfl⟩

/-- Equal terms are left out: where both sides have the same instance no argument differs. -/
theorem checkForward_of_rewritesIn {e : Equation} {C : Context} {s : Char → Term} {t u : Term}
    (h : e.RewritesIn C s t u) (hne : t ≠ u) : e.checkForward t u = .ok () := by
  obtain ⟨hs, rfl, rfl⟩ := h
  induction C with
  | hole =>
    apply checkForward_of_rewrites
    exact rewrites_iff.mpr ⟨s, hs, rfl, rfl⟩
  | node c before C after ih =>
    have hne' : C.fill (e.lhs.instantiate s) ≠ C.fill (e.rhs.instantiate s) := by
      intro he
      exact hne (by rw [Context.fill, he, Context.fill])
    exact checkForward_node_eq_ok_iff.mpr
      (.inr ⟨rfl, before, _, _, after, rfl, rfl, hne', ih hne'⟩)

theorem check_eq_ok_iff {e : Equation} {t u : Term} :
    e.check t u = .ok () ↔
      t ≠ u ∧ (e.checkForward t u = .ok () ∨ e.flip.checkForward t u = .ok ()) := by
  have hok : ∀ r : Except StepError Unit, r.isOk = true ↔ r = .ok () := by
    intro r
    cases r <;> simp [Except.isOk, Except.toBool]
  rw [check]
  by_cases htu : t = u
  · simp [htu]
  rw [if_neg htu]
  by_cases h : (e.checkForward t u).isOk = true ∨ (e.flip.checkForward t u).isOk = true
  · rw [if_pos (Bool.or_eq_true_iff.mpr h)]
    simpa only [hok, htu, ne_eq, not_false_eq_true, true_and, true_iff] using h
  · rw [if_neg (fun hb => h (Bool.or_eq_true_iff.mp hb))]
    simp only [hok] at h
    simp only [h, and_false, iff_false]
    split <;> simp

/-- An accepted step rewrites one place by one of the readings of the equation. -/
theorem exists_rewritesIn_of_check {e : Equation} {t u : Term} (h : e.check t u = .ok ()) :
    ∃ C s, e.RewritesIn C s t u ∨ e.flip.RewritesIn C s t u := by
  rcases (check_eq_ok_iff.mp h).2 with h | h
  · obtain ⟨C, s, hr⟩ := exists_rewritesIn_of_checkForward h
    exact ⟨C, s, .inl hr⟩
  · obtain ⟨C, s, hr⟩ := exists_rewritesIn_of_checkForward h
    exact ⟨C, s, .inr hr⟩

/-- A step is accepted exactly if its terms differ and one place is rewritten by one reading of
the equation. -/
theorem check_accepts_one_site (e : Equation) (t u : Term) :
    e.check t u = .ok () ↔
      t ≠ u ∧ ∃ d, (d = e ∨ d = e.flip) ∧ ∃ (C : Context) (s : Char → Term),
        (∀ x ∈ d.rhs.patternVariables, x ∉ d.lhs.patternVariables → s x = .leaf x) ∧
        t = C.fill (d.lhs.instantiate s) ∧ u = C.fill (d.rhs.instantiate s) := by
  rw [check_eq_ok_iff]
  constructor
  · rintro ⟨hne, h | h⟩
    · exact ⟨hne, e, .inl rfl, exists_rewritesIn_of_checkForward h⟩
    · exact ⟨hne, e.flip, .inr rfl, exists_rewritesIn_of_checkForward h⟩
  · rintro ⟨hne, d, hd, C, s, h⟩
    have hc := checkForward_of_rewritesIn (e := d) h hne
    rcases hd with rfl | rfl
    · exact ⟨hne, .inl hc⟩
    · exact ⟨hne, .inr hc⟩

end Equation

end Equational
