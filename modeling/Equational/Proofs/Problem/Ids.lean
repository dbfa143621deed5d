import Mathlib.Data.List.Basic
import Equational.Theory.Basic

namespace Equational

theorem toDigits_ten_injective : Function.Injective (Nat.toDigits 10) := by
  intro m n h
  rw [← Nat.ofDigitChars_ten_toDigits (n := m), h, Nat.ofDigitChars_ten_toDigits]

theorem stop_notMem_toDigits (n : Nat) : '.' ∉ Nat.toDigits 10 n := by
  intro h
  have hdigit : '.'.isDigit = true := Nat.isDigit_of_mem_toDigits (by decide) (by decide) h
  exact absurd hdigit (by decide)

namespace Problem

variable {p q : Problem}

theorem toList_id (p : Problem) :
    p.id.toList = Nat.toDigits 10 p.week.toNat ++ '.' :: Nat.toDigits 10 p.number.toNat := by
  simp [id]

/-- Two problems have one id exactly if they have the same number in the same week. -/
theorem id_eq_id_iff : p.id = q.id ↔ p.week = q.week ∧ p.number = q.number := by
  rw [← String.toList_inj, toList_id, toList_id,
    List.append_cons_inj_of_notMem (stop_notMem_toDigits _) (stop_notMem_toDigits _)]
  simp only [toDigits_ten_injective.eq_iff, UInt32.toNat_inj, true_and]

end Problem

/-- A problem that is begun leaves the laws that are stored for any other week or number. -/
theorem Theory.stored_start_of_ne (θ : Theory) {p q : Problem}
    (h : ¬ (q.week = p.week ∧ q.number = p.number)) :
    (θ.start p).stored.get? q.id = θ.stored.get? q.id := by
  rw [start]
  cases p.customLaws with
  | none => rfl
  | some laws => exact SortedMap.get?_insert_of_ne _ _ fun hid => h (Problem.id_eq_id_iff.mp hid)

namespace ProblemSet

/-- What is found by the id of a problem is the first one with its week and number. -/
theorem get?_id_eq_some_iff (s : ProblemSet) (p q : Problem) :
    s.get? p.id = some q ↔
      (q.week = p.week ∧ q.number = p.number) ∧
        ∃ before after, s.problems = before ++ q :: after ∧
          ∀ r ∈ before, ¬ (r.week = p.week ∧ r.number = p.number) := by
  simp only [get?, List.find?_eq_some_iff_append, beq_iff_eq, Bool.not_eq_true',
    beq_eq_false_iff_ne, ne_eq, Problem.id_eq_id_iff]

theorem exists_get?_id (s : ProblemSet) {p : Problem} (h : p ∈ s.problems) :
    ∃ q, s.get? p.id = some q := by
  rw [← Option.isSome_iff_exists, get?, List.find?_isSome]
  exact ⟨p, h, beq_self_eq_true p.id⟩

theorem number_le_trans (p q r : Problem) (hpq : decide (p.number ≤ q.number) = true)
    (hqr : decide (q.number ≤ r.number) = true) : decide (p.number ≤ r.number) = true := by
  rw [decide_eq_true_eq] at hpq hqr ⊢
  exact UInt32.le_trans hpq hqr

theorem number_le_total (p q : Problem) :
    (decide (p.number ≤ q.number) || decide (q.number ≤ p.number)) = true := by
  rw [Bool.or_eq_true, decide_eq_true_eq, decide_eq_true_eq]
  exact UInt32.le_total p.number q.number

theorem perm_week (s : ProblemSet) (w : UInt32) :
    (s.week w).Perm (s.problems.filter (·.week == w)) :=
  List.mergeSort_perm _ _

theorem pairwise_week (s : ProblemSet) (w : UInt32) :
    (s.week w).Pairwise (·.number ≤ ·.number) := by
  have h := List.pairwise_mergeSort number_le_trans number_le_total
    (s.problems.filter (·.week == w))
  simpa only [week, decide_eq_true_eq] using h

/-- Problems of one number are listed in the order of the set. -/
theorem filter_number_week (s : ProblemSet) (w n : UInt32) :
    (s.week w).filter (·.number == n) =
      (s.problems.filter (·.week == w)).filter (·.number == n) := by
  let ps := s.problems.filter (·.week == w)
  have hle : (ps.filter (·.number == n)).Pairwise fun p q => decide (p.number ≤ q.number) := by
    apply List.pairwise_of_forall_mem_list
    intro p hp q hq
    have hp : p.number = n := beq_iff_eq.mp (List.mem_filter.mp hp).2
    have hq : q.number = n := beq_iff_eq.mp (List.mem_filter.mp hq).2
    rw [hp, hq, decide_eq_true_eq]
    exact UInt32.le_refl n
  have hkept : (ps.filter (·.number == n)).Sublist (s.week w) :=
    List.sublist_mergeSort number_le_trans number_le_total hle List.filter_sublist
  have hsublist : (ps.filter (·.number == n)).Sublist ((s.week w).filter (·.number == n)) := by
    have h := hkept.filter (·.number == n)
    simpa only [List.filter_filter, Bool.and_self] using h
  have hlength := ((perm_week s w).filter (·.number == n)).length_eq
  exact (hsublist.eq_of_length hlength.symm).symm

/-- An id stands for one week and one number. By the id of a problem of the set the first problem
of this week and number is found. The list of a week holds the problems of the week by number, those
of one number in the order of the set. -/
theorem id_identifies (s : ProblemSet) :
    (∀ p q : Problem, p.id = q.id ↔ p.week = q.week ∧ p.number = q.number) ∧
    (∀ p ∈ s.problems, ∃ q, s.get? p.id = some q ∧
      (q.week = p.week ∧ q.number = p.number) ∧
        ∃ before after, s.problems = before ++ q :: after ∧
          ∀ r ∈ before, ¬ (r.week = p.week ∧ r.number = p.number)) ∧
    ∀ w, (s.week w).Perm (s.problems.filter (·.week == w)) ∧
      (s.week w).Pairwise (·.number ≤ ·.number) ∧
      ∀ n, (s.week w).filter (·.number == n) =
        (s.problems.filter (·.week == w)).filter (·.number == n) := by
  refine ⟨fun p q => Problem.id_eq_id_iff, fun p hp => ?_, fun w => ?_⟩
  · obtain ⟨q, hq⟩ := s.exists_get?_id hp
    exact ⟨q, hq, (s.get?_id_eq_some_iff p q).mp hq⟩
  · exact ⟨s.perm_week w, s.pairwise_week w, s.filter_number_week w⟩

/-- Ids that differ only in where the full stop stands, two problems of one id, and a number that
comes first as text but not as a number. -/
theorem id_identifies_of_digits :
    let problem (w n : UInt32) (lhs : String) : Problem :=
      { (default : Problem) with week := w, number := n, lhs := lhs }
    let s : ProblemSet := ⟨[problem 11 2 "A", problem 1 12 "B", problem 1 2 "C", problem 1 2 "D"]⟩
    (problem 1 12 "B").id ≠ (problem 11 2 "A").id ∧ problem 1 2 "D" ∈ s.problems ∧
      s.get? (problem 1 2 "D").id = some (problem 1 2 "C") ∧
      (∃ before after, s.problems = before ++ problem 1 2 "C" :: after ∧
        ∀ r ∈ before, ¬ (r.week = 1 ∧ r.number = 2)) ∧
      (s.week 1).Perm [problem 1 12 "B", problem 1 2 "C", problem 1 2 "D"] ∧
      (s.week 1).Pairwise (·.number ≤ ·.number) ∧
      (s.week 1).filter (·.number == 2) = [problem 1 2 "C", problem 1 2 "D"] := by
  intro problem s
  obtain ⟨hids, hfound, hweek⟩ := id_identifies s
  obtain ⟨hperm, hsorted, hstable⟩ := hweek 1
  have hmem : problem 1 2 "D" ∈ s.problems := by decide
  have hget : s.get? (problem 1 2 "D").id = some (problem 1 2 "C") := by decide +kernel
  obtain ⟨q, hq, -, hfirst⟩ := hfound _ hmem
  obtain rfl : problem 1 2 "C" = q := Option.some.inj (hget.symm.trans hq)
  have hne : (problem 1 12 "B").id ≠ (problem 11 2 "A").id := fun h =>
    absurd ((hids _ _).mp h).1 (by decide)
  exact ⟨hne, hmem, hget, hfirst, hperm, hsorted, hstable 2⟩

end ProblemSet

end Equational
