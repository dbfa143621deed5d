import Equational.Rewriting.Substitution

namespace Equational.Term

@[elab_as_elim, induction_eliminator]
theorem induction {motive : Term → Prop}
    (node : ∀ c ts, (∀ t ∈ ts, motive t) → motive (node c ts)) : ∀ t, motive t
  | .node c ts => node c ts fun t _ => induction node t

theorem toNat_of_isUpper {c : Char} (h : c.isUpper = true) : 65 ≤ c.toNat ∧ c.toNat ≤ 90 := by
  obtain ⟨hl, hu⟩ := of_decide_eq_true h
  exact ⟨UInt32.le_iff_toNat_le.mp hl, UInt32.le_iff_toNat_le.mp hu⟩

theorem toNat_of_isLower {c : Char} (h : c.isLower = true) : 97 ≤ c.toNat ∧ c.toNat ≤ 122 := by
  obtain ⟨hl, hu⟩ := Bool.and_eq_true_iff.mp h
  exact ⟨UInt32.le_iff_toNat_le.mp (of_decide_eq_true hl),
    UInt32.le_iff_toNat_le.mp (of_decide_eq_true hu)⟩

theorem isLetter_iff {c : Char} : isLetter c = true ↔ c.isUpper = true ∨ c.isLower = true :=
  Bool.or_eq_true_iff

/-- The pattern variables of a term from left to right, with repetitions. -/
def patternVariables (t : Term) : List Char := (t.subterms.filter isPatternVariable).map head

@[simp] theorem patternVariables_leaf {c : Char} (hc : c.isLower = true) :
    (leaf c).patternVariables = [c] := by
  simp [patternVariables, leaf, subterms, subtermsList, isPatternVariable, isLeaf, args, head, hc]

/-- A node that is no pattern variable has the pattern variables of its arguments. -/
theorem mem_patternVariables_node {c x : Char} {ts : List Term}
    (h : (ts.isEmpty && c.isLower) = false) :
    x ∈ (node c ts).patternVariables ↔ ∃ t ∈ ts, x ∈ t.patternVariables := by
  have hp : (node c ts).isPatternVariable = false := h
  simp only [patternVariables, subterms, subtermsList_eq, List.filter_cons, hp]
  simp only [Bool.false_eq_true, if_false, List.mem_map, List.mem_filter, List.mem_flatMap]
  constructor
  · rintro ⟨u, ⟨⟨t, ht, hu⟩, hx⟩, rfl⟩
    exact ⟨t, ht, u, ⟨hu, hx⟩, rfl⟩
  · rintro ⟨t, ht, u, ⟨hu, hx⟩, rfl⟩
    exact ⟨u, ⟨⟨t, ht, hu⟩, hx⟩, rfl⟩

/-- Every term is a pattern variable, or substitution passes through its head. -/
theorem variable_or_node (t : Term) :
    (∃ c, c.isLower = true ∧ t = leaf c) ∨
      ∃ c ts, (ts.isEmpty && c.isLower) = false ∧ t = node c ts := by
  obtain ⟨c, ts⟩ := t
  cases h : ts.isEmpty && c.isLower with
  | false => exact .inr ⟨c, ts, h, rfl⟩
  | true =>
    obtain ⟨hts, hc⟩ := Bool.and_eq_true_iff.mp h
    exact .inl ⟨c, hc, by rw [leaf, List.isEmpty_iff.mp hts]⟩

@[simp] theorem substitute_leaf {c : Char} (hc : c.isLower = true) (s : Char → Option Term) :
    (leaf c).substitute s = (s c).getD (leaf c) := by
  rw [leaf, substitute]
  cases hs : s c <;> simp [hc, substituteList]

theorem substitute_node {c : Char} {ts : List Term} (h : (ts.isEmpty && c.isLower) = false)
    (s : Char → Option Term) : (node c ts).substitute s = node c (ts.map (substitute s)) := by
  rw [substitute, h, substituteList_eq]

/-- A substitution matters only at the pattern variables of the term. -/
theorem substitute_congr {t : Term} {s s' : Char → Option Term}
    (h : ∀ x ∈ t.patternVariables, (s x).getD (leaf x) = (s' x).getD (leaf x)) :
    t.substitute s = t.substitute s' := by
  induction t with
  | node c ts ih =>
    rcases variable_or_node (node c ts) with ⟨d, hd, he⟩ | ⟨d, us, hd, he⟩
    · rw [he, substitute_leaf hd, substitute_leaf hd]
      exact h d (by simp [he, hd])
    · obtain ⟨rfl, rfl⟩ := node.inj he
      rw [substitute_node hd, substitute_node hd]
      congr 1
      apply List.map_congr_left
      intro t ht
      exact ih t ht fun x hx => h x ((mem_patternVariables_node hd).mpr ⟨t, ht, hx⟩)

/-- Puts a term for every pattern variable. -/
def instantiate (s : Char → Term) (t : Term) : Term := t.substitute fun x => some (s x)

@[simp] theorem instantiate_leaf {c : Char} (hc : c.isLower = true) (s : Char → Term) :
    (leaf c).instantiate s = s c := substitute_leaf hc _

theorem instantiate_node {c : Char} {ts : List Term} (h : (ts.isEmpty && c.isLower) = false)
    (s : Char → Term) : (node c ts).instantiate s = node c (ts.map (instantiate s)) :=
  substitute_node h _

theorem instantiate_congr {t : Term} {s s' : Char → Term}
    (h : ∀ x ∈ t.patternVariables, s x = s' x) : t.instantiate s = t.instantiate s' :=
  substitute_congr h

/-- A pattern variable for which nothing is given stands for itself. -/
theorem substitute_eq_instantiate (t : Term) (s : Char → Option Term) :
    t.substitute s = t.instantiate fun x => (s x).getD (leaf x) :=
  substitute_congr fun _ _ => rfl

end Equational.Term
