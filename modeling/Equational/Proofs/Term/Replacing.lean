import Mathlib.Algebra.BigOperators.Ring.List
import Mathlib.Algebra.Order.BigOperators.Group.List
import Equational.Proofs.Rewriting.Refusals
import Equational.Proofs.Term.Walks
import Equational.Signature.Basic

namespace Equational

namespace Term

variable {t u v target replacement : Term} {c : Char} {ts : List Term}

/-- How many nodes are found to be the top of a given term. -/
def occurrences (t target : Term) : Nat := (t.find (· = target)).length

theorem replace_self (target replacement : Term) :
    target.replace target replacement = replacement := by
  obtain ⟨c, ts⟩ := target
  rw [replace, if_pos rfl]

theorem replace_node (h : node c ts ≠ target) (replacement : Term) :
    (node c ts).replace target replacement = node c (ts.map (·.replace target replacement)) := by
  rw [replace, if_neg h, replaceList_eq]

theorem at?_append (t : Term) (p q : List Nat) : t.at? (p ++ q) = (t.at? p).bind (·.at? q) := by
  induction p generalizing t with
  | nil => rfl
  | cons i p ih =>
    rw [List.cons_append, at?, at?, Option.bind_assoc]
    congr 1
    funext w
    exact ih w

/-- The nodes of a term are found at its places. -/
theorem mem_subterms_iff : u ∈ t.subterms ↔ ∃ p, t.at? p = some u := by
  induction t with
  | node c ts ih =>
    rw [subterms_node, List.mem_cons, List.mem_flatMap]
    constructor
    · rintro (rfl | ⟨w, hw, hu⟩)
      · exact ⟨[], rfl⟩
      · obtain ⟨p, hp⟩ := (ih w hw).mp hu
        obtain ⟨i, hi⟩ := List.mem_iff_getElem?.mp hw
        exact ⟨i :: p, Option.bind_eq_some_iff.mpr ⟨w, hi, hp⟩⟩
    · rintro ⟨_ | ⟨i, p⟩, h⟩
      · exact .inl (Option.some.inj h).symm
      · obtain ⟨w, hi, hp⟩ := Option.bind_eq_some_iff.mp h
        have hw : w ∈ ts := List.mem_of_getElem? hi
        exact .inr ⟨w, hw, (ih w hw).mpr ⟨p, hp⟩⟩

theorem self_mem_subterms (t : Term) : t ∈ t.subterms := mem_subterms_iff.mpr ⟨[], rfl⟩

theorem size_lt_of_mem (h : t ∈ ts) : t.size < (node c ts).size := by
  have hle : t.size ≤ (ts.map size).sum := List.le_sum_of_mem (List.mem_map_of_mem h)
  rw [size_node]
  omega

/-- What stands below the top is smaller than the whole. -/
theorem size_lt_of_at? {i : Nat} {p : List Nat} (h : t.at? (i :: p) = some v) :
    v.size < t.size := by
  induction p generalizing t i with
  | nil =>
    obtain ⟨c, ts⟩ := t
    obtain ⟨w, hi, hw⟩ := Option.bind_eq_some_iff.mp h
    obtain rfl : w = v := Option.some.inj hw
    exact size_lt_of_mem (List.mem_of_getElem? hi)
  | cons j p ih =>
    obtain ⟨c, ts⟩ := t
    obtain ⟨w, hi, hp⟩ := Option.bind_eq_some_iff.mp h
    have hw : w.size < (node c ts).size := size_lt_of_mem (List.mem_of_getElem? hi)
    have hv : v.size < w.size := ih hp
    omega

/-- A term does not occur in itself below its top. -/
theorem not_mem_subterms_of_mem (h : t ∈ ts) : node c ts ∉ t.subterms := by
  intro hm
  obtain ⟨p, hp⟩ := mem_subterms_iff.mp hm
  obtain ⟨i, hi⟩ := List.mem_iff_getElem?.mp h
  have hself : (node c ts).at? (i :: p) = some (node c ts) :=
    Option.bind_eq_some_iff.mpr ⟨t, hi, hp⟩
  have hlt := size_lt_of_at? hself
  omega

theorem occurrences_self (target : Term) : target.occurrences target = 1 := by
  obtain ⟨c, ts⟩ := target
  have hbelow : (ts.flatMap subterms).filter (· = node c ts) = [] := by
    apply List.filter_eq_nil_iff.mpr
    intro u hu
    obtain ⟨w, hw, huw⟩ := List.mem_flatMap.mp hu
    have hne : u ≠ node c ts := fun he => not_mem_subterms_of_mem hw (he ▸ huw)
    simpa using hne
  rw [occurrences, find_eq_filter, subterms_node, List.filter_cons_of_pos (by simp), hbelow]
  rfl

theorem occurrences_node (h : node c ts ≠ target) :
    (node c ts).occurrences target = (ts.map (·.occurrences target)).sum := by
  simp only [occurrences, find_eq_filter]
  rw [subterms_node, List.filter_cons_of_neg (by simpa using h), List.filter_flatMap,
    List.length_flatMap]

/-- Each occurrence takes the size of the target away and adds that of the replacement. -/
theorem size_replace (t target replacement : Term) :
    (t.replace target replacement).size + t.occurrences target * target.size =
      t.size + t.occurrences target * replacement.size := by
  induction t with
  | node c ts ih =>
    by_cases h : node c ts = target
    · rw [h, replace_self, occurrences_self]
      omega
    · have hsize : ((node c ts).replace target replacement).size =
          (ts.map fun t => (t.replace target replacement).size).sum + 1 := by
        rw [replace_node h, size_node, List.map_map]
        rfl
      have hargs : (ts.map fun t => (t.replace target replacement).size +
            t.occurrences target * target.size).sum =
          (ts.map fun t => t.size + t.occurrences target * replacement.size).sum :=
        congrArg List.sum (List.map_congr_left ih)
      rw [List.sum_map_add, List.sum_map_add, List.sum_map_mul_right,
        List.sum_map_mul_right] at hargs
      rw [hsize, occurrences_node h, size_node]
      omega

/-- A place is kept, with the occurrences below it replaced, if none stands above it. -/
theorem at?_replace {p : List Nat} (hv : t.at? p = some v)
    (h : ∀ q, q <+: p → q ≠ p → t.at? q ≠ some target) :
    (t.replace target replacement).at? p = some (v.replace target replacement) := by
  induction p generalizing t with
  | nil =>
    obtain rfl : t = v := Option.some.inj hv
    rfl
  | cons i p ih =>
    obtain ⟨c, ts⟩ := t
    obtain ⟨w, hi, hw⟩ := Option.bind_eq_some_iff.mp hv
    have htop : node c ts ≠ target := by
      intro he
      exact h [] List.nil_prefix (List.cons_ne_nil i p).symm (congrArg some he)
    have hbelow : (w.replace target replacement).at? p = some (v.replace target replacement) := by
      refine ih hw fun q hq hne hqt => ?_
      have hiq : (node c ts).at? (i :: q) = some target :=
        Option.bind_eq_some_iff.mpr ⟨w, hi, hqt⟩
      exact h (i :: q) (List.cons_prefix_cons.mpr ⟨rfl, hq⟩) (by simpa using hne) hiq
    rw [replace_node htop]
    refine Option.bind_eq_some_iff.mpr ⟨w.replace target replacement, ?_, hbelow⟩
    change (ts.map (·.replace target replacement))[i]? = _
    rw [List.getElem?_map, show ts[i]? = some w from hi, Option.map_some]

/-- Of two different places of one term neither is above the other. -/
theorem at?_ne_of_prefix {p q : List Nat} (hp : t.at? p = some target) (hq : q <+: p)
    (hne : q ≠ p) : t.at? q ≠ some target := by
  intro hqt
  obtain ⟨r, rfl⟩ := hq
  rw [at?_append, hqt, Option.bind_some] at hp
  cases r with
  | nil => exact hne (List.append_nil q).symm
  | cons i r =>
    have hlt := size_lt_of_at? hp
    omega

/-- The replacement stands wherever the target has stood. -/
theorem at?_replace_self {p : List Nat} (h : t.at? p = some target) :
    (t.replace target replacement).at? p = some replacement := by
  rw [at?_replace h fun q hq hne => at?_ne_of_prefix h hq hne, replace_self]

/-- Nothing changes at a place with no occurrence there or above. -/
theorem sameTop_replace {p : List Nat} (hv : t.at? p = some v)
    (h : ∀ q, q <+: p → t.at? q ≠ some target) :
    BothAt SameTop t (t.replace target replacement) p := by
  have hne : v ≠ target := fun he => h p (List.prefix_refl p) (he ▸ hv)
  refine ⟨v, v.replace target replacement, hv, at?_replace hv fun q hq _ => h q hq, ?_⟩
  obtain ⟨c, ts⟩ := v
  rw [replace_node hne]
  exact ⟨rfl, (List.length_map _).symm⟩

theorem replace_of_not_mem (h : target ∉ t.subterms) (replacement : Term) :
    t.replace target replacement = t := by
  induction t with
  | node c ts ih =>
    have htop : node c ts ≠ target := fun he => h (he ▸ self_mem_subterms _)
    have hargs : ∀ t ∈ ts, t.replace target replacement = t := by
      intro t ht
      refine ih t ht fun hm => h ?_
      rw [subterms_node]
      exact List.mem_cons_of_mem _ (List.mem_flatMap.mpr ⟨t, ht, hm⟩)
    rw [replace_node htop, List.map_congr_left hargs, List.map_id']

/-- A term without the replacement becomes the replacement only if it is the target. A copy of it
that arose above an occurrence would hold itself. -/
theorem replace_ne (hne : t ≠ target) (h : replacement ∉ t.subterms) :
    t.replace target replacement ≠ replacement := by
  intro he
  by_cases hm : target ∈ t.subterms
  · obtain ⟨_ | ⟨i, p⟩, hp⟩ := mem_subterms_iff.mp hm
    · exact hne (Option.some.inj hp)
    · have hbelow : (t.replace target replacement).at? (i :: p) = some replacement :=
        at?_replace_self hp
      have hlt := size_lt_of_at? hbelow
      rw [he] at hlt
      omega
  · rw [replace_of_not_mem hm] at he
    exact h (he ▸ self_mem_subterms t)

theorem replace_replace (h : replacement ∉ t.subterms) :
    (t.replace target replacement).replace replacement target = t := by
  induction t with
  | node c ts ih =>
    by_cases ht : node c ts = target
    · rw [ht, replace_self, replace_self]
    · have htop := replace_ne ht h
      have hargs : ∀ t ∈ ts, (t.replace target replacement).replace replacement target = t := by
        intro t ht
        refine ih t ht fun hm => h ?_
        rw [subterms_node]
        exact List.mem_cons_of_mem _ (List.mem_flatMap.mpr ⟨t, ht, hm⟩)
      rw [replace_node ht] at htop ⊢
      rw [replace_node htop, List.map_map]
      congr 1
      exact (List.map_congr_left hargs).trans (List.map_id' ts)

end Term

theorem Signature.wellFormed_replace {σ : Signature} {t target replacement : Term}
    (h : σ.wellFormed t = true) (hr : σ.wellFormed replacement = true) :
    σ.wellFormed (t.replace target replacement) = true := by
  induction t with
  | node c ts ih =>
    by_cases ht : Term.node c ts = target
    · rwa [ht, Term.replace_self]
    · rw [Term.replace_node ht]
      rw [wellFormed, wellFormedList_eq, Bool.and_eq_true] at h ⊢
      obtain ⟨htop, hts⟩ := h
      refine ⟨by simpa using htop, ?_⟩
      rw [List.all_map, List.all_eq_true]
      intro t ht
      exact ih t ht (List.all_eq_true.mp hts t ht)

/-- The replacement stands at exactly the places of the target, and nothing else changes. So the
size changes by as many sizes of the replacement, instead of the target, as the target occurs. If
the replacement has not occurred before, it can be replaced by the target again. A well-formed
replacement keeps the term well formed. -/
theorem Term.replace_exactly (t target replacement : Term) :
    (∀ p, t.at? p = some target → (t.replace target replacement).at? p = some replacement) ∧
    (∀ p v, t.at? p = some v → (∀ q, q <+: p → t.at? q ≠ some target) →
      BothAt SameTop t (t.replace target replacement) p) ∧
    (t.replace target replacement).size + t.occurrences target * target.size =
      t.size + t.occurrences target * replacement.size ∧
    (replacement ∉ t.subterms →
      (t.replace target replacement).replace replacement target = t) ∧
    ∀ σ : Signature, σ.wellFormed t = true → σ.wellFormed replacement = true →
      σ.wellFormed (t.replace target replacement) = true := by
  refine ⟨?_, ?_, size_replace t target replacement, replace_replace, ?_⟩
  · intro p hp
    exact at?_replace_self hp
  · intro p v hv h
    exact sameTop_replace hv h
  · intro σ ht hr
    exact Signature.wellFormed_replace ht hr

/-- What is put in holds the target. It is not searched again, and is found by the way back. -/
theorem Term.replace_exactly_of_repeated :
    let σ : Signature :=
      ⟨[.plain '|' "or" "∨" .between, .plain '!' "not" "¬" .before], .plain, by decide⟩
    let t : Term := .node '|' [.leaf 'A', .node '!' [.leaf 'A']]
    let r : Term := .node '|' [.leaf 'A', .leaf 'B']
    t.at? [1, 0] = some (.leaf 'A') ∧ (t.replace (.leaf 'A') r).at? [1, 0] = some r ∧
      BothAt SameTop t (t.replace (.leaf 'A') r) [1] ∧
      r ∉ t.subterms ∧ (t.replace (.leaf 'A') r).replace r (.leaf 'A') = t ∧
      σ.wellFormed t = true ∧ σ.wellFormed r = true ∧
      σ.wellFormed (t.replace (.leaf 'A') r) = true := by
  intro σ t r
  obtain ⟨hplaces, htops, -, hback, hwell⟩ := replace_exactly t (.leaf 'A') r
  have hplace : t.at? [1, 0] = some (.leaf 'A') := rfl
  have habove : ∀ q, q <+: [1] → t.at? q ≠ some (.leaf 'A') := by
    intro q hq
    rcases List.prefix_cons_iff.mp hq with rfl | ⟨s, rfl, hs⟩
    · decide
    · rw [List.prefix_nil.mp hs]
      decide
  have hnew : r ∉ t.subterms := by decide
  have ht : σ.wellFormed t = true := by decide
  have hr : σ.wellFormed r = true := by decide
  exact ⟨hplace, hplaces _ hplace, htops [1] _ rfl habove, hnew, hback hnew, ht, hr,
    hwell σ ht hr⟩

end Equational
