import Mathlib.Data.Set.Card
import Equational.Proofs.Rewriting.OneSite

namespace Equational

namespace Term

variable {t u : Term} {p : List Nat}

/-- The subterm at a place. A place is given by the numbers of the arguments on the way down. -/
def at? : Term → List Nat → Option Term
  | t, [] => some t
  | t, i :: p => t.args[i]?.bind (·.at? p)

theorem at?_cons_of_args {i : Nat} {v : Term} (h : t.args[i]? = some v) :
    t.at? (i :: p) = v.at? p := by
  rw [at?, h, Option.bind_some]

/-- The terms have the same head and equally many arguments. -/
def SameTop (t u : Term) : Prop := t.head = u.head ∧ t.args.length = u.args.length

/-- Both terms have the place, and `P` holds for what they have there. -/
def BothAt (P : Term → Term → Prop) (t u : Term) (p : List Nat) : Prop :=
  ∃ v w, t.at? p = some v ∧ u.at? p = some w ∧ P v w

/-- The terms differ at the top of what they have at the place, and nowhere above it. -/
structure DiffersAt (t u : Term) (p : List Nat) : Prop where
  top_ne : BothAt (¬ SameTop · ·) t u p
  above : ∀ q, q <+: p → q ≠ p → BothAt SameTop t u q

theorem bothAt_nil {P : Term → Term → Prop} : BothAt P t u [] ↔ P t u := by
  constructor
  · rintro ⟨v, w, ht, hu, h⟩
    rwa [Option.some.inj ht, Option.some.inj hu]
  · intro h
    exact ⟨t, u, rfl, rfl, h⟩

theorem bothAt_cons {P : Term → Term → Prop} {i : Nat} :
    BothAt P t u (i :: p) ↔
      ∃ v w, t.args[i]? = some v ∧ u.args[i]? = some w ∧ BothAt P v w p := by
  simp only [BothAt, at?, Option.bind_eq_some_iff]
  constructor
  · rintro ⟨a, b, ⟨v, hv, ha⟩, ⟨w, hw, hb⟩, h⟩
    exact ⟨v, w, hv, hw, a, b, ha, hb, h⟩
  · rintro ⟨v, w, hv, hw, a, b, ha, hb, h⟩
    exact ⟨a, b, ⟨v, hv, ha⟩, ⟨w, hw, hb⟩, h⟩

theorem bothAt_cons_of_args {P : Term → Term → Prop} {i : Nat} {v w : Term}
    (hv : t.args[i]? = some v) (hw : u.args[i]? = some w) :
    BothAt P t u (i :: p) ↔ BothAt P v w p := by
  rw [bothAt_cons]
  simp [hv, hw]

theorem differsAt_nil : t.DiffersAt u [] ↔ ¬ t.SameTop u := by
  constructor
  · rintro ⟨h, -⟩
    exact bothAt_nil.mp h
  · intro h
    refine ⟨bothAt_nil.mpr h, fun q hq hne => ?_⟩
    exact absurd (List.prefix_nil.mp hq) hne

/-- Below the top two terms differ in arguments of the same number, if their tops are the same. -/
theorem differsAt_cons {i : Nat} :
    t.DiffersAt u (i :: p) ↔
      t.SameTop u ∧ ∃ v w, t.args[i]? = some v ∧ u.args[i]? = some w ∧ v.DiffersAt w p := by
  constructor
  · rintro ⟨hne, habove⟩
    have htop := bothAt_nil.mp (habove [] List.nil_prefix (List.cons_ne_nil i p).symm)
    obtain ⟨v, w, hv, hw, hne⟩ := bothAt_cons.mp hne
    refine ⟨htop, v, w, hv, hw, hne, fun q hq hqp => ?_⟩
    have hq' := habove (i :: q) (List.cons_prefix_cons.mpr ⟨rfl, hq⟩) (by simpa using hqp)
    exact (bothAt_cons_of_args hv hw).mp hq'
  · rintro ⟨htop, v, w, hv, hw, hne, habove⟩
    refine ⟨bothAt_cons.mpr ⟨v, w, hv, hw, hne⟩, fun q hq hqp => ?_⟩
    cases q with
    | nil => exact bothAt_nil.mpr htop
    | cons j q =>
      obtain ⟨rfl, hq'⟩ := List.cons_prefix_cons.mp hq
      exact (bothAt_cons_of_args hv hw).mpr (habove q hq' (by simpa using hqp))

mutual

/-- The places at which two terms differ, from left to right. -/
def places : Term → Term → List (List Nat)
  | node c ts, node d us =>
    if c = d ∧ ts.length = us.length then placesFrom 0 ts us else [[]]

/-- The places in two lists of arguments whose first ones have the number `i`. -/
def placesFrom (i : Nat) : List Term → List Term → List (List Nat)
  | t :: ts, u :: us => (places t u).map (i :: ·) ++ placesFrom (i + 1) ts us
  | _, _ => []

end

theorem mem_placesFrom {i : Nat} {ts us : List Term} :
    p ∈ placesFrom i ts us ↔
      ∃ j v w q, ts[j]? = some v ∧ us[j]? = some w ∧ q ∈ v.places w ∧ p = (i + j) :: q := by
  induction ts generalizing i us with
  | nil => simp [placesFrom]
  | cons t ts ih =>
    cases us with
    | nil => simp [placesFrom]
    | cons u us =>
      rw [placesFrom, List.mem_append, List.mem_map, ih]
      constructor
      · rintro (⟨q, hq, rfl⟩ | ⟨j, v, w, q, hv, hw, hq, rfl⟩)
        · exact ⟨0, t, u, q, rfl, rfl, hq, rfl⟩
        · exact ⟨j + 1, v, w, q, hv, hw, hq, by rw [Nat.add_assoc, Nat.add_comm 1]⟩
      · rintro ⟨_ | j, v, w, q, hv, hw, hq, rfl⟩
        · obtain rfl : t = v := Option.some.inj hv
          obtain rfl : u = w := Option.some.inj hw
          exact .inl ⟨q, hq, rfl⟩
        · exact .inr ⟨j, v, w, q, hv, hw, hq, by rw [Nat.add_assoc, Nat.add_comm 1]⟩

theorem mem_places : p ∈ t.places u ↔ t.DiffersAt u p := by
  induction p generalizing t u with
  | nil =>
    obtain ⟨c, ts⟩ := t
    obtain ⟨d, us⟩ := u
    rw [differsAt_nil, places]
    by_cases h : c = d ∧ ts.length = us.length
    · simp [h, SameTop, head, args, mem_placesFrom]
    · simp [h, SameTop, head, args]
  | cons i p ih =>
    obtain ⟨c, ts⟩ := t
    obtain ⟨d, us⟩ := u
    rw [differsAt_cons, places]
    by_cases h : c = d ∧ ts.length = us.length
    · simp [h, SameTop, head, args, mem_placesFrom, ih]
    · simp [h, SameTop, head, args]

theorem nodup_placesFrom {i : Nat} {ts us : List Term}
    (h : ∀ t ∈ ts, ∀ u, (t.places u).Nodup) : (placesFrom i ts us).Nodup := by
  induction ts generalizing i us with
  | nil => simp [placesFrom]
  | cons t ts ih =>
    cases us with
    | nil => simp [placesFrom]
    | cons u us =>
      rw [placesFrom]
      refine List.Nodup.append ?_ (ih fun v hv => h v (by simp [hv])) ?_
      · exact (h t (by simp) u).map fun q q' hq => (List.cons.inj hq).2
      · -- the places in later arguments begin with greater numbers
        intro q hq hq'
        obtain ⟨r, -, rfl⟩ := List.mem_map.mp hq
        obtain ⟨j, v, w, r', -, -, -, he⟩ := mem_placesFrom.mp hq'
        have hi := (List.cons.inj he).1
        omega

theorem nodup_places (t u : Term) : (t.places u).Nodup := by
  induction t generalizing u with
  | node c ts ih =>
    obtain ⟨d, us⟩ := u
    rw [places]
    split
    · exact nodup_placesFrom ih
    · exact List.nodup_singleton _

theorem length_placesFrom {i : Nat} {ts us : List Term}
    (h : ∀ t ∈ ts, ∀ u, (t.places u).length = t.differences u) :
    (placesFrom i ts us).length = differencesList ts us := by
  induction ts generalizing i us with
  | nil => simp [placesFrom, differencesList]
  | cons t ts ih =>
    cases us with
    | nil => simp [placesFrom, differencesList]
    | cons u us =>
      rw [placesFrom, differencesList, List.length_append, List.length_map, h t (by simp),
        ih fun v hv => h v (by simp [hv])]

theorem length_places (t u : Term) : (t.places u).length = t.differences u := by
  induction t generalizing u with
  | node c ts ih =>
    obtain ⟨d, us⟩ := u
    rw [places, differences]
    split
    · exact length_placesFrom ih
    · rfl

/-- There are as many places at which the terms differ as are counted. -/
theorem encard_differsAt (t u : Term) : {p | t.DiffersAt u p}.encard = t.differences u := by
  have hset : {p | t.DiffersAt u p} = ((t.places u).toFinset : Set (List Nat)) := by
    ext p
    rw [Set.mem_ofPred_eq, ← mem_places, Finset.mem_coe, List.mem_toFinset]
  rw [hset, Set.encard_coe_eq_coe_finsetCard, List.toFinset_card_of_nodup (nodup_places t u),
    length_places]

example :
    places (node '&' [node '|' [leaf 'A', leaf 'A'], node '!' [leaf 'B']])
      (node '&' [leaf 'A', node '!' [leaf 'C']]) = [[0], [1, 0]] := by decide

mutual

/-- The number of differences does not depend on which term comes first. -/
theorem differences_comm (t u : Term) : t.differences u = u.differences t := by
  match t, u with
  | node c ts, node d us =>
    rw [differences, differences]
    by_cases h : c = d ∧ ts.length = us.length
    · have h' : d = c ∧ us.length = ts.length := ⟨h.1.symm, h.2.symm⟩
      rw [if_pos h, if_pos h', differencesList_comm ts us]
    · have h' : ¬ (d = c ∧ us.length = ts.length) := fun hd => h ⟨hd.1.symm, hd.2.symm⟩
      rw [if_neg h, if_neg h']
termination_by sizeOf t

theorem differencesList_comm (ts us : List Term) :
    differencesList ts us = differencesList us ts := by
  match ts, us with
  | [], [] => rfl
  | [], _ :: _ => rfl
  | _ :: _, [] => rfl
  | t :: ts, u :: us =>
    rw [differencesList, differencesList, differences_comm t u, differencesList_comm ts us]
termination_by sizeOf ts

end

theorem differencesList_eq_zero_iff {ts us : List Term} (hl : ts.length = us.length)
    (h : ∀ t ∈ ts, ∀ u, t.differences u = 0 ↔ t = u) : differencesList ts us = 0 ↔ ts = us := by
  induction ts generalizing us with
  | nil => simpa [differencesList] using hl.symm
  | cons t ts ih =>
    obtain ⟨u, us, rfl⟩ := List.exists_cons_of_length_eq_add_one hl.symm
    rw [differencesList, Nat.add_eq_zero_iff, h t (by simp), List.cons.injEq,
      ih (by simpa using hl) fun v hv => h v (by simp [hv])]

/-- Only equal terms have no difference. -/
theorem differences_eq_zero_iff (t u : Term) : t.differences u = 0 ↔ t = u := by
  induction t generalizing u with
  | node c ts ih =>
    obtain ⟨d, us⟩ := u
    rw [differences, node.injEq]
    split
    · next h => rw [differencesList_eq_zero_iff h.2 ih, and_iff_right h.1]
    · next h =>
      simp only [one_ne_zero, false_iff]
      rintro ⟨rfl, rfl⟩
      exact h ⟨rfl, rfl⟩

end Term

/-- Why terms with so many differences are no step. -/
def StepError.ofDifferences : Nat → StepError
  | 0 => noChange
  | 1 => doesNotApply
  | _ => tooManyChanges

namespace StepError

variable {n : Nat}

theorem noChange_eq_ofDifferences_iff : noChange = ofDifferences n ↔ n = 0 := by
  rcases n with _ | _ | n <;> simp [ofDifferences]

theorem doesNotApply_eq_ofDifferences_iff : doesNotApply = ofDifferences n ↔ n = 1 := by
  rcases n with _ | _ | n <;> simp [ofDifferences]

theorem tooManyChanges_eq_ofDifferences_iff : tooManyChanges = ofDifferences n ↔ 2 ≤ n := by
  rcases n with _ | _ | n <;> simp [ofDifferences]

end StepError

namespace Equation

variable {e : Equation} {t u : Term}

/-- The reason for which a step is refused depends on nothing but the number of differences. -/
theorem check_eq_error (hne : t ≠ u) (h : e.check t u ≠ .ok ()) :
    e.check t u = .error (.ofDifferences (t.differences u)) := by
  rw [check, if_neg hne] at h ⊢
  split at h
  · exact absurd rfl h
  · next ha =>
    rw [if_neg ha]
    rcases t.differences u with _ | _ | n <;> rfl

theorem check_self (e : Equation) (t : Term) : e.check t t = .error .noChange := by
  rw [check, if_pos rfl]

theorem check_eq_error_iff {r : StepError} :
    e.check t u = .error r ↔ e.check t u ≠ .ok () ∧ r = .ofDifferences (t.differences u) := by
  by_cases htu : t = u
  · subst htu
    rw [check_self, (t.differences_eq_zero_iff t).mpr rfl]
    simp [StepError.ofDifferences, eq_comm]
  · constructor
    · intro h
      have hok : e.check t u ≠ .ok () := by simp [h]
      exact ⟨hok, Except.error.inj (h.symm.trans (check_eq_error htu hok))⟩
    · rintro ⟨hok, rfl⟩
      exact check_eq_error htu hok

/-- Equations that accept the same step refuse it for the same reason. -/
theorem check_congr {e' : Equation} (h : e'.check t u = .ok () ↔ e.check t u = .ok ()) :
    e'.check t u = e.check t u := by
  cases hc : e.check t u with
  | ok a => exact h.mpr hc
  | error r =>
    obtain ⟨hok, rfl⟩ := check_eq_error_iff.mp hc
    exact check_eq_error_iff.mpr ⟨fun hc' => hok (h.mp hc'), rfl⟩

/-- Among the arguments no change is found only where no pair differs. -/
theorem checkForwardList_eq_noChange_iff {ts us : List Term} (hl : ts.length = us.length)
    (h : ∀ t ∈ ts, ∀ u, t ≠ u → e.checkForward t u ≠ .error .noChange) :
    e.checkForwardList ts us = .error .noChange ↔ ts = us := by
  induction ts generalizing us with
  | nil =>
    obtain rfl : us = [] := List.length_eq_zero_iff.mp hl.symm
    simp [checkForwardList]
  | cons t ts ih =>
    obtain ⟨u, us, rfl⟩ := List.exists_cons_of_length_eq_add_one hl.symm
    rw [checkForwardList, List.cons.injEq]
    split
    · next htu =>
      rw [ih (by simpa using hl) fun v hv => h v (by simp [hv]), and_iff_right htu]
    · next htu =>
      simp only [htu, false_and, iff_false]
      split
      · exact h t (by simp) u htu
      · simp

/-- One reading finds no change only in equal terms, and there only if it does not rewrite the term
to itself. -/
theorem checkForward_eq_noChange_iff :
    e.checkForward t u = .error .noChange ↔ t = u ∧ e.rewrites t u = false := by
  induction t generalizing u with
  | node c ts ih =>
    obtain ⟨d, us⟩ := u
    have hargs : ∀ t ∈ ts, ∀ u, t ≠ u → e.checkForward t u ≠ .error .noChange :=
      fun t ht u hne hc => hne ((ih t ht).mp hc).1
    rw [checkForward]
    by_cases hr : e.rewrites (.node c ts) (.node d us) = true
    · simp [hr]
    · rw [if_neg hr]
      simp only [hr, and_true, Term.node.injEq]
      split
      · next h =>
        have hne : ¬ (c = d ∧ ts = us) := by
          rintro ⟨rfl, rfl⟩
          simp at h
        simp [hne]
      · next h =>
        obtain ⟨hc, hl⟩ := not_or.mp h
        rw [checkForwardList_eq_noChange_iff (not_not.mp hl) hargs,
          and_iff_right (not_not.mp hc)]

/-- The number of differences is that of the places at which the terms differ. It does not depend on
which term comes first, and only equal terms have none. So the check finds no change in equal terms
and in no others. Any other step that it refuses does not apply if the terms differ at one place,
and changes too much if they differ at more. One reading by itself finds no change in equal terms
only. -/
theorem check_refusals (t u : Term) :
    {p | t.DiffersAt u p}.encard = t.differences u ∧ t.differences u = u.differences t ∧
    (t.differences u = 0 ↔ t = u) ∧
    ∀ e : Equation,
      (e.check t u = .error .noChange ↔ t = u) ∧
      (e.check t u = .error .doesNotApply ↔
        e.check t u ≠ .ok () ∧ {p | t.DiffersAt u p}.encard = 1) ∧
      (e.check t u = .error .tooManyChanges ↔
        e.check t u ≠ .ok () ∧ 2 ≤ {p | t.DiffersAt u p}.encard) ∧
      (e.checkForward t u = .error .noChange ↔ t = u ∧ e.rewrites t u = false) := by
  have hcount := t.encard_differsAt u
  have hzero := t.differences_eq_zero_iff u
  refine ⟨hcount, t.differences_comm u, hzero, fun e => ⟨?_, ?_, ?_, ?_⟩⟩
  · constructor
    · intro h
      exact hzero.mp (StepError.noChange_eq_ofDifferences_iff.mp (check_eq_error_iff.mp h).2)
    · rintro rfl
      exact check_self e t
  · rw [check_eq_error_iff, StepError.doesNotApply_eq_ofDifferences_iff, hcount, Nat.cast_eq_one]
  · rw [check_eq_error_iff, StepError.tooManyChanges_eq_ofDifferences_iff, hcount,
      Nat.ofNat_le_cast]
  · exact checkForward_eq_noChange_iff

end Equation

end Equational
