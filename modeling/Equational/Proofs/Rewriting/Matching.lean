import Equational.Proofs.Rewriting.Pattern
import Equational.Rewriting.Matching

/-! Matching succeeds exactly if the term is an instance of the pattern. The bindings of a
successful match are described by the substitutions that they are below: a total substitution `s`
is above `b` if it puts for every bound variable the term that `b` binds. -/

namespace Equational

namespace Bindings

/-- The substitution `s` puts the bound terms for the bound variables. -/
def Below (b : Bindings) (s : Char → Term) : Prop := ∀ x t, b.get? x = some t → s x = t

theorem below_empty (s : Char → Term) : Below ∅ s := by
  intro x t h
  cases h

theorem below_insert {b : Bindings} {x : Char} {t : Term} {s : Char → Term}
    (hb : b.get? x = none) : Below (b.insert x t) s ↔ s x = t ∧ b.Below s := by
  constructor
  · intro h
    refine ⟨h x t (by simp), fun y u hy => h y u ?_⟩
    have hne : y ≠ x := by rintro rfl; simp [hb] at hy
    simpa [hne] using hy
  · rintro ⟨hx, h⟩ y u hy
    by_cases he : y = x
    · subst he
      rw [SortedMap.get?_insert_self] at hy
      exact hx.trans (Option.some.inj hy)
    · exact h y u (by simpa [he] using hy)

/-- The least substitution above the bindings: what is not bound stays. -/
def close (b : Bindings) (x : Char) : Term := (b.get? x).getD (.leaf x)

theorem below_close (b : Bindings) : b.Below b.close := by
  intro x t h
  simp [close, h]

theorem instantiate_eq_close (b : Bindings) (t : Term) :
    b.instantiate t = t.instantiate b.close := t.substitute_eq_instantiate b.get?

end Bindings

namespace Term

theorem matchAgainst_leaf_ok_iff {c : Char} (hc : c.isLower = true) {t : Term} {b b' : Bindings} :
    (leaf c).matchAgainst t b = .ok b' ↔
      (b.get? c = some t ∧ b' = b) ∨ (b.get? c = none ∧ b' = b.insert c t) := by
  obtain ⟨d, ts⟩ := t
  rw [leaf, matchAgainst]
  cases hb : b.get? c with
  | none => simp [hc, eq_comm]
  | some u =>
    by_cases hu : u = node d ts
    · simp [hc, hu, eq_comm]
    · simp [hc, hu]

theorem matchAgainst_node_ok_iff {p : Char} {ps : List Term}
    (hp : (ps.isEmpty && p.isLower) = false) {c : Char} {cs : List Term} {b b' : Bindings} :
    (node p ps).matchAgainst (node c cs) b = .ok b' ↔
      p = c ∧ ps.length = cs.length ∧ matchAgainstList ps cs b = .ok b' := by
  rw [matchAgainst, hp]
  by_cases hc : p = c
  · by_cases hl : ps.length = cs.length
    · simp [hc, hl]
    · simp [hc, hl]
  · simp [hc]

theorem matchAgainstList_cons_ok_iff {p c : Term} {ps cs : List Term} {b b' : Bindings} :
    matchAgainstList (p :: ps) (c :: cs) b = .ok b' ↔
      ∃ d, p.matchAgainst c b = .ok d ∧ matchAgainstList ps cs d = .ok b' := by
  rw [matchAgainstList]
  cases p.matchAgainst c b with
  | ok d => simp
  | error e => simp

-- The bindings grow on the way through the pattern, so the induction speaks about all substitutions
-- above them, whatever bindings it starts from.
mutual

/-- The substitutions above the bindings of a successful match are those above the bindings that
it started from which make the pattern the given term. -/
theorem exists_matchAgainst_below_iff (p t : Term) (b : Bindings) (s : Char → Term) :
    (∃ b', p.matchAgainst t b = .ok b' ∧ b'.Below s) ↔ b.Below s ∧ p.instantiate s = t := by
  rcases variable_or_node p with ⟨c, hc, rfl⟩ | ⟨c, ps, hc, rfl⟩
  · simp only [matchAgainst_leaf_ok_iff hc, instantiate_leaf hc]
    cases hb : b.get? c with
    | none => simp [Bindings.below_insert hb, and_comm]
    | some u =>
      have hu : b.Below s → s c = u := fun h => h c u hb
      grind
  · obtain ⟨d, ts⟩ := t
    simp only [matchAgainst_node_ok_iff hc, instantiate_node hc, node.injEq]
    constructor
    · rintro ⟨b', ⟨rfl, hl, h⟩, hs⟩
      have hb := (exists_matchAgainstList_below_iff ps ts b s hl).mp ⟨b', h, hs⟩
      exact ⟨hb.1, rfl, hb.2⟩
    · rintro ⟨hs, rfl, hi⟩
      have hl : ps.length = ts.length := by rw [← hi, List.length_map]
      obtain ⟨b', h, hs'⟩ := (exists_matchAgainstList_below_iff ps ts b s hl).mpr ⟨hs, hi⟩
      exact ⟨b', ⟨rfl, hl, h⟩, hs'⟩
termination_by sizeOf p

theorem exists_matchAgainstList_below_iff (ps ts : List Term) (b : Bindings) (s : Char → Term)
    (hl : ps.length = ts.length) :
    (∃ b', matchAgainstList ps ts b = .ok b' ∧ b'.Below s) ↔
      b.Below s ∧ ps.map (instantiate s) = ts := by
  match ps, ts with
  | [], [] => simp [matchAgainstList]
  | p :: ps, t :: ts =>
    have hp := fun b => exists_matchAgainst_below_iff p t b s
    have hps := fun b => exists_matchAgainstList_below_iff ps ts b s (by simpa using hl)
    simp only [matchAgainstList_cons_ok_iff, List.map_cons, List.cons.injEq]
    constructor
    · rintro ⟨b', ⟨d, hd, h⟩, hs⟩
      have h₂ := (hps d).mp ⟨b', h, hs⟩
      have h₁ := (hp b).mp ⟨d, hd, h₂.1⟩
      exact ⟨h₁.1, h₁.2, h₂.2⟩
    · rintro ⟨hs, h₁, h₂⟩
      obtain ⟨d, hd, hs'⟩ := (hp b).mpr ⟨hs, h₁⟩
      obtain ⟨b', h, hs''⟩ := (hps d).mpr ⟨hs', h₂⟩
      exact ⟨b', ⟨d, hd, h⟩, hs''⟩
termination_by sizeOf ps

end

mutual

/-- A successful match binds the variables of the pattern and no others anew. -/
theorem isSome_get?_matchAgainst {p t : Term} {b b' : Bindings} (h : p.matchAgainst t b = .ok b')
    (x : Char) : (b'.get? x).isSome ↔ (b.get? x).isSome ∨ x ∈ p.patternVariables := by
  rcases variable_or_node p with ⟨c, hc, rfl⟩ | ⟨c, ps, hc, rfl⟩
  · rw [patternVariables_leaf hc, List.mem_singleton]
    rcases (matchAgainst_leaf_ok_iff hc).mp h with ⟨hb, rfl⟩ | ⟨hb, rfl⟩
    · by_cases hx : x = c
      · simp [hx, hb]
      · simp [hx]
    · by_cases hx : x = c
      · simp [hx]
      · simp [hx]
  · obtain ⟨d, ts⟩ := t
    obtain ⟨-, hl, h⟩ := (matchAgainst_node_ok_iff hc).mp h
    rw [isSome_get?_matchAgainstList h hl x, mem_patternVariables_node hc]
termination_by sizeOf p

theorem isSome_get?_matchAgainstList {ps ts : List Term} {b b' : Bindings}
    (h : matchAgainstList ps ts b = .ok b') (hl : ps.length = ts.length) (x : Char) :
    (b'.get? x).isSome ↔ (b.get? x).isSome ∨ ∃ p ∈ ps, x ∈ p.patternVariables := by
  match ps, ts with
  | [], [] =>
    obtain rfl : b = b' := by simpa [matchAgainstList] using h
    simp
  | p :: ps, t :: ts =>
    obtain ⟨d, hd, h⟩ := matchAgainstList_cons_ok_iff.mp h
    rw [isSome_get?_matchAgainstList h (by simpa using hl) x, isSome_get?_matchAgainst hd x]
    simp [or_assoc]
termination_by sizeOf ps

end

end Term

end Equational
