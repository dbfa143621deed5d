import Equational.Proofs.Rewriting.LeastBindings
import Equational.Proofs.Term.Replacing

namespace Equational

namespace Term

variable {v w : Term} {x : Char} {p q : List Nat}

/-- The place `q` is to the left of `p`: their ways part, and that to `q` goes on further left. -/
inductive LeftOf : List Nat → List Nat → Prop where
  | fork {i j : Nat} (h : i < j) (q p : List Nat) : LeftOf (i :: q) (j :: p)
  | down (i : Nat) {q p : List Nat} (h : LeftOf q p) : LeftOf (i :: q) (i :: p)

/-- The pattern variables of a term stand at its places. -/
theorem mem_patternVariables_iff {t : Term} :
    x ∈ t.patternVariables ↔ ∃ q, t.at? q = some (leaf x) ∧ x.isLower = true := by
  rw [patternVariables, List.mem_map]
  constructor
  · rintro ⟨u, hu, rfl⟩
    obtain ⟨hm, hv⟩ := List.mem_filter.mp hu
    obtain ⟨hleaf, hlower⟩ := Bool.and_eq_true_iff.mp hv
    obtain ⟨q, hq⟩ := mem_subterms_iff.mp hm
    obtain ⟨c, ts⟩ := u
    obtain rfl : ts = [] := List.isEmpty_iff.mp hleaf
    exact ⟨q, hq, hlower⟩
  · rintro ⟨q, hq, hlower⟩
    exact ⟨leaf x, List.mem_filter.mpr ⟨mem_subterms_iff.mpr ⟨q, hq⟩, hlower⟩, rfl⟩

/-- What stands at a place of a pattern is there in its instances too, with the bound terms put in. -/
theorem at?_instantiate (b : Bindings) (h : v.at? q = some w) :
    (b.instantiate v).at? q = some (b.instantiate w) := by
  induction q generalizing v with
  | nil =>
    obtain rfl : v = w := Option.some.inj h
    rfl
  | cons i q ih =>
    obtain ⟨c, ts⟩ := v
    obtain ⟨u, hu, hw⟩ := Option.bind_eq_some_iff.mp h
    have hc : (ts.isEmpty && c.isLower) = false := by
      have hne : ts ≠ [] := List.ne_nil_of_mem (List.mem_of_getElem? hu)
      simp [hne]
    have harg : (ts.map (substitute b.get?))[i]? = some (b.instantiate u) := by
      rw [List.getElem?_map, show ts[i]? = some u from hu, Option.map_some]
      rfl
    rw [Bindings.instantiate, substitute_node hc]
    exact Option.bind_eq_some_iff.mpr ⟨b.instantiate u, harg, ih hw⟩

end Term

theorem Bindings.instantiate_leaf_of_get? {b : Bindings} {x : Char} {u : Term}
    (hx : x.isLower = true) (h : b.get? x = some u) : b.instantiate (.leaf x) = u := by
  rw [instantiate, Term.substitute_leaf hx, h, Option.getD_some]

/-- What an error says about the pattern and the term at the place of the failure. -/
def MatchError.Explains (b : Bindings) : MatchError → Term → Term → Prop
  | headMismatch p c, v, w =>
    v.isPatternVariable = false ∧ v.head = p ∧ w.head = c ∧ p ≠ c
  | arityMismatch p n m, v, w =>
    v.isPatternVariable = false ∧ v.head = p ∧ w.head = p ∧
      v.args.length = n ∧ w.args.length = m ∧ n ≠ m
  | bindingMismatch x bound found, v, w =>
    v.isPatternVariable = true ∧ v = .leaf x ∧ w = found ∧ b.get? x = some bound ∧ bound ≠ found

/-- A match of the pattern with the term `t`, begun with the bindings `b₀`, fails at the place `p`. -/
structure MatchFailure.OccursAt (f : MatchFailure) (pattern t : Term) (b₀ : Bindings)
    (p : List Nat) : Prop where
  keeps : f.bindings.Extends b₀
  fresh : ∀ x u, f.bindings.get? x = some u → b₀.get? x = some u ∨
    ∃ q, Term.LeftOf q p ∧ x.isLower = true ∧ pattern.at? q = some (.leaf x) ∧ t.at? q = some u
  cause : Term.BothAt (f.cause.Explains f.bindings) pattern t p
  above : ∀ q, q <+: p → q ≠ p → Term.BothAt Term.SameTop pattern t q
  left : ∀ q v, Term.LeftOf q p → pattern.at? q = some v →
    t.at? q = some (f.bindings.instantiate v)

namespace Term

variable {p c : Char} {ps cs : List Term} {t : Term} {b d s : Bindings} {f : MatchFailure}

theorem matchAgainst_leaf_error_iff (hc : c.isLower = true) :
    (leaf c).matchAgainst t b = .error f ↔
      ∃ u, b.get? c = some u ∧ u ≠ t ∧ f = ⟨.bindingMismatch c u t, b⟩ := by
  obtain ⟨d, ts⟩ := t
  rw [leaf, matchAgainst]
  cases hb : b.get? c with
  | none => simp [hc]
  | some u =>
    by_cases hu : u = node d ts
    · simp [hc, hu]
    · simp [hc, hu, eq_comm]

theorem matchAgainst_node_error_iff (hp : (ps.isEmpty && p.isLower) = false) :
    (node p ps).matchAgainst (node c cs) b = .error f ↔
      p ≠ c ∧ f = ⟨.headMismatch p c, b⟩ ∨
      p = c ∧ ps.length ≠ cs.length ∧ f = ⟨.arityMismatch p ps.length cs.length, b⟩ ∨
      p = c ∧ ps.length = cs.length ∧ matchAgainstList ps cs b = .error f := by
  rw [matchAgainst, hp]
  by_cases hc : p = c
  · by_cases hl : ps.length = cs.length
    · simp [hc, hl]
    · simp [hc, hl, eq_comm]
  · simp [hc, eq_comm]

/-- Arguments are matched in turn up to the first one that fails. -/
theorem exists_of_matchAgainstList_error (h : matchAgainstList ps cs b = .error f) :
    ∃ ps₁ v ps₂ cs₁ w cs₂ d, ps = ps₁ ++ v :: ps₂ ∧ cs = cs₁ ++ w :: cs₂ ∧
      ps₁.length = cs₁.length ∧ matchAgainstList ps₁ cs₁ b = .ok d ∧
      v.matchAgainst w d = .error f := by
  induction ps generalizing cs b with
  | nil => simp [matchAgainstList] at h
  | cons v ps ih =>
    cases cs with
    | nil => simp [matchAgainstList] at h
    | cons w cs =>
      rw [matchAgainstList] at h
      cases hv : v.matchAgainst w b with
      | error e =>
        rw [hv] at h
        obtain rfl : e = f := Except.error.inj h
        exact ⟨[], v, ps, [], w, cs, b, rfl, rfl, rfl, rfl, hv⟩
      | ok d =>
        rw [hv] at h
        obtain ⟨ps₁, v', ps₂, cs₁, w', cs₂, d', rfl, rfl, hl, hd', hf⟩ := ih h
        refine ⟨v :: ps₁, v', ps₂, w :: cs₁, w', cs₂, d', rfl, rfl, by simpa using hl, ?_, hf⟩
        exact matchAgainstList_cons_ok_iff.mpr ⟨d, hv, hd'⟩

/-- Arguments that have been matched are instances of their patterns, also under later bindings. -/
theorem map_instantiate_of_matchAgainstList (h : matchAgainstList ps cs b = .ok d)
    (hl : ps.length = cs.length) (hs : s.Extends d) : ps.map s.instantiate = cs := by
  have hmatched := (exists_matchAgainstList_below_iff ps cs b s.close hl).mp
    ⟨d, h, hs.below_close⟩
  rw [← hmatched.2]
  exact List.map_congr_left fun v _ => s.instantiate_eq_close v

theorem extends_of_matchAgainstList (h : matchAgainstList ps cs b = .ok d)
    (hl : ps.length = cs.length) : d.Extends b := by
  have hmatched := (exists_matchAgainstList_below_iff ps cs b d.close hl).mp ⟨d, h, d.below_close⟩
  apply Bindings.extends_of_below_close hmatched.1
  intro x hx
  exact (isSome_get?_matchAgainstList h hl x).mpr (.inl hx)

/-- What has been bound in matching arguments was bound before, or stands in one of them where its
pattern has the variable. -/
theorem get?_of_matchAgainstList (h : matchAgainstList ps cs b = .ok d)
    (hl : ps.length = cs.length) {x : Char} {u : Term} (hx : d.get? x = some u) :
    b.get? x = some u ∨ ∃ (j : Nat) (q : List Nat) (v w : Term), ps[j]? = some v ∧
      cs[j]? = some w ∧ x.isLower = true ∧ v.at? q = some (leaf x) ∧ w.at? q = some u := by
  have hsome := (isSome_get?_matchAgainstList h hl x).mp (Option.isSome_of_eq_some hx)
  rcases hsome with hold | ⟨v, hv, hm⟩
  · obtain ⟨u', hu'⟩ := Option.isSome_iff_exists.mp hold
    have hkept : d.get? x = some u' := extends_of_matchAgainstList h hl x u' hu'
    obtain rfl : u = u' := Option.some.inj (hx.symm.trans hkept)
    exact .inl hu'
  · obtain ⟨q, hq, hlower⟩ := mem_patternVariables_iff.mp hm
    obtain ⟨j, hj⟩ := List.mem_iff_getElem?.mp hv
    have hinst : ps.map d.instantiate = cs :=
      map_instantiate_of_matchAgainstList h hl (Bindings.extends_refl d)
    have hw : cs[j]? = some (d.instantiate v) := by
      rw [← hinst, List.getElem?_map, hj, Option.map_some]
    have hplace : (d.instantiate v).at? q = some u := by
      rw [at?_instantiate d hq, Bindings.instantiate_leaf_of_get? hlower hx]
    exact .inr ⟨j, q, v, d.instantiate v, hj, hw, hlower, hq, hplace⟩

end Term

/-- A failure at the top of the pattern has bound nothing, and nothing is to the left of it. -/
theorem MatchFailure.occursAt_nil {e : MatchError} {v w : Term} {b : Bindings}
    (h : e.Explains b v w) : (⟨e, b⟩ : MatchFailure).OccursAt v w b [] where
  keeps := b.extends_refl
  fresh := fun _ _ hx => .inl hx
  cause := Term.bothAt_nil.mpr h
  above := fun _ hq hne => absurd (List.prefix_nil.mp hq) hne
  left := fun _ _ hq => nomatch hq

/-- A failure in an argument is one of the whole pattern, if the arguments before it have been
matched. -/
theorem MatchFailure.OccursAt.argument {f : MatchFailure} {v w : Term} {b d : Bindings}
    {ps₁ ps₂ cs₁ cs₂ : List Term} {p : List Nat} (h : f.OccursAt v w d p) (c : Char)
    (hd : Term.matchAgainstList ps₁ cs₁ b = .ok d) (hl : ps₁.length = cs₁.length)
    (hl' : ps₂.length = cs₂.length) :
    f.OccursAt (.node c (ps₁ ++ v :: ps₂)) (.node c (cs₁ ++ w :: cs₂)) b (ps₁.length :: p) := by
  have hv : (ps₁ ++ v :: ps₂)[ps₁.length]? = some v := by simp
  have hw : (cs₁ ++ w :: cs₂)[ps₁.length]? = some w := by simp [hl]
  have hbefore {j : Nat} (hj : j < ps₁.length) :
      (ps₁ ++ v :: ps₂)[j]? = ps₁[j]? ∧ (cs₁ ++ w :: cs₂)[j]? = cs₁[j]? :=
    ⟨List.getElem?_append_left hj, List.getElem?_append_left (hl ▸ hj)⟩
  refine ⟨?_, ?_, ?_, ?_, ?_⟩
  · exact h.keeps.trans (Term.extends_of_matchAgainstList hd hl)
  · intro x u hx
    rcases h.fresh x u hx with hold | ⟨q, hq, hlower, hpattern, hterm⟩
    · rcases Term.get?_of_matchAgainstList hd hl hold with
        hold | ⟨j, q, v', w', hv', hw', hlower, hpattern, hterm⟩
      · exact .inl hold
      · have hj : j < ps₁.length := (List.getElem?_eq_some_iff.mp hv').1
        refine .inr ⟨j :: q, .fork hj q p, hlower, ?_, ?_⟩
        · rw [Term.at?_cons_of_args ((hbefore hj).1.trans hv'), hpattern]
        · rw [Term.at?_cons_of_args ((hbefore hj).2.trans hw'), hterm]
    · refine .inr ⟨ps₁.length :: q, .down _ hq, hlower, ?_, ?_⟩
      · rw [Term.at?_cons_of_args hv, hpattern]
      · rw [Term.at?_cons_of_args hw, hterm]
  · exact (Term.bothAt_cons_of_args hv hw).mpr h.cause
  · intro q hq hne
    cases q with
    | nil =>
      refine Term.bothAt_nil.mpr ⟨rfl, ?_⟩
      simp [Term.args, hl, hl']
    | cons i q =>
      obtain ⟨rfl, hq'⟩ := List.cons_prefix_cons.mp hq
      exact (Term.bothAt_cons_of_args hv hw).mpr (h.above q hq' (by simpa using hne))
  · intro q u hq hu
    cases hq with
    | @fork j _ hj q _ =>
      obtain ⟨v', hv', hu⟩ := Option.bind_eq_some_iff.mp hu
      have hinst : ps₁.map f.bindings.instantiate = cs₁ :=
        Term.map_instantiate_of_matchAgainstList hd hl h.keeps
      have hw' : cs₁[j]? = some (f.bindings.instantiate v') := by
        rw [← hinst, List.getElem?_map, (hbefore hj).1.symm.trans hv', Option.map_some]
      rw [Term.at?_cons_of_args ((hbefore hj).2.trans hw'), Term.at?_instantiate _ hu]
    | @down _ q _ hq =>
      rw [Term.at?_cons_of_args hv] at hu
      rw [Term.at?_cons_of_args hw, h.left q u hq hu]

/-- A match that fails does so at a place. There the error tells what is wrong, above it the pattern
and the term have the same heads and numbers of arguments, and to the left of it the pattern has
become the term. The old bindings are kept, and the new ones come from the left of the place. -/
theorem Term.failure_has_place {pattern t : Term} {b₀ : Bindings} {f : MatchFailure}
    (h : pattern.matchAgainst t b₀ = .error f) : ∃ p, f.OccursAt pattern t b₀ p := by
  induction pattern generalizing t b₀ with
  | node c ps ih =>
    rcases variable_or_node (node c ps) with ⟨x, hx, he⟩ | ⟨d, ps', hd, he⟩
    · rw [he] at h ⊢
      obtain ⟨u, hu, hne, rfl⟩ := (matchAgainst_leaf_error_iff hx).mp h
      exact ⟨[], MatchFailure.occursAt_nil ⟨hx, rfl, rfl, hu, hne⟩⟩
    · obtain ⟨rfl, rfl⟩ := node.inj he
      obtain ⟨d, cs⟩ := t
      rcases (matchAgainst_node_error_iff hd).mp h with
        ⟨hne, rfl⟩ | ⟨rfl, hne, rfl⟩ | ⟨rfl, hl, hargs⟩
      · exact ⟨[], MatchFailure.occursAt_nil ⟨hd, rfl, rfl, hne⟩⟩
      · exact ⟨[], MatchFailure.occursAt_nil ⟨hd, rfl, rfl, rfl, rfl, hne⟩⟩
      · obtain ⟨ps₁, v, ps₂, cs₁, w, cs₂, d, rfl, rfl, hl₁, hmatched, hfails⟩ :=
          exists_of_matchAgainstList_error hargs
        obtain ⟨p, hp⟩ := ih v (by simp) hfails
        have hl₂ : ps₂.length = cs₂.length := by simpa [hl₁] using hl
        exact ⟨_, hp.argument c hmatched hl₁ hl₂⟩

/-- The pattern `!x | (y & x)` against `!A | (B & C)`, where `z` has been bound before. The letters
are bound from left to right, until `x` would have to stand for a second term. -/
theorem Term.failure_has_place_of_repeated :
    let pattern : Term := node '|' [node '!' [leaf 'x'], node '&' [leaf 'y', leaf 'x']]
    let t : Term := node '|' [node '!' [leaf 'A'], node '&' [leaf 'B', leaf 'C']]
    let b₀ : Bindings := (∅ : Bindings).insert 'z' (leaf 'D')
    let b : Bindings := (b₀.insert 'x' (leaf 'A')).insert 'y' (leaf 'B')
    let f : MatchFailure := ⟨.bindingMismatch 'x' (leaf 'A') (leaf 'C'), b⟩
    pattern.matchAgainst t b₀ = .error f ∧ ∃ p, f.OccursAt pattern t b₀ p := by
  intro pattern t b₀ b f
  have hfails : pattern.matchAgainst t b₀ = .error f := rfl
  exact ⟨hfails, failure_has_place hfails⟩

end Equational
