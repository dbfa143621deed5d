import Mathlib.Algebra.Ring.Nat
import Mathlib.Data.List.Perm.Basic
import Equational.Proofs.Rewriting.Pattern
import Equational.Term.Linear

namespace Equational.Term

variable {t : Term} {c : Char} {ts : List Term}

theorem sizeList_eq (ts : List Term) : sizeList ts = (ts.map size).sum := by
  induction ts with
  | nil => rfl
  | cons t ts ih => rw [sizeList, ih, List.map_cons, List.sum_cons]

theorem size_node (c : Char) (ts : List Term) : (node c ts).size = (ts.map size).sum + 1 := by
  rw [size, sizeList_eq]

theorem subterms_node (c : Char) (ts : List Term) :
    (node c ts).subterms = node c ts :: ts.flatMap subterms := by
  rw [subterms, subtermsList_eq]

theorem subtermsUp_node (c : Char) (ts : List Term) :
    (node c ts).subtermsUp = ts.flatMap subtermsUp ++ [node c ts] := by
  rw [subtermsUp, subtermsUpList_eq]

/-- A visit takes the nodes one after another, whatever it does at them. -/
theorem visit_eq_foldl {α : Type} (f : α → Term → α) (t : Term) (a : α) :
    t.visit f a = t.subtermsUp.foldl f a := by
  induction t generalizing a with
  | node c ts ih =>
    have hargs : ts.foldl (fun a t => t.visit f a) a = (ts.flatMap subtermsUp).foldl f a := by
      rw [List.foldl_flatMap]
      apply List.foldl_ext
      intro b t ht
      exact ih t ht b
    rw [visit, visitList_eq, hargs, subtermsUp_node, List.foldl_append, List.foldl_cons,
      List.foldl_nil]

/-- A search adds the nodes with the property to those found before. -/
theorem collect_eq_append (p : Term → Bool) (t : Term) (found : List Term) :
    t.collect p found = found ++ t.subterms.filter p := by
  induction t generalizing found with
  | node c ts ih =>
    have hargs (found : List Term) : ts.foldl (fun found t => t.collect p found) found =
        found ++ (ts.flatMap subterms).filter p := by
      calc
        _ = ts.foldl (fun found t => found ++ t.subterms.filter p) found := by
          apply List.foldl_ext
          intro b t ht
          exact ih t ht b
        _ = found ++ ts.flatMap fun t => t.subterms.filter p := by
          rw [List.foldl_append_eq_append, List.flatMap_def]
        _ = _ := by rw [List.filter_flatMap]
    rw [collect, collectList_eq, hargs, subterms_node]
    by_cases hp : p (node c ts) = true
    · rw [if_pos hp, List.filter_cons_of_pos hp, List.append_assoc, List.singleton_append]
    · rw [if_neg hp, List.filter_cons_of_neg hp]

theorem find_eq_filter (p : Term → Bool) (t : Term) : t.find p = t.subterms.filter p := by
  rw [find, collect_eq_append, List.nil_append]

/-- The nodes in the order of the visits. -/
def visited (t : Term) : List Term := t.visit (fun us u => us ++ [u]) []

/-- The nodes in the order of the search. -/
def searched (t : Term) : List Term := t.find fun _ => true

theorem visited_eq (t : Term) : t.visited = t.subtermsUp := by
  rw [visited, visit_eq_foldl, List.foldl_append_eq_append, ← List.flatMap_def,
    List.flatMap_singleton', List.nil_append]

theorem searched_eq (t : Term) : t.searched = t.subterms := by
  rw [searched, find_eq_filter, List.filter_true]

theorem length_subterms (t : Term) : t.subterms.length = t.size := by
  induction t with
  | node c ts ih =>
    rw [subterms_node, List.length_cons, List.length_flatMap, List.map_congr_left ih, size_node]

theorem subtermsUp_perm_subterms (t : Term) : t.subtermsUp.Perm t.subterms := by
  induction t with
  | node c ts ih =>
    have hargs : (ts.flatMap subtermsUp).Perm (ts.flatMap subterms) := List.Perm.flatMap_left ts ih
    rw [subtermsUp_node, subterms_node]
    exact (List.perm_append_singleton _ _).trans (hargs.cons _)

/-- A term is its only leaf, or has the leaves of its arguments from left to right. -/
theorem filter_isLeaf_subterms (c : Char) (ts : List Term) (h : ts ≠ []) :
    (node c ts).subterms.filter isLeaf = ts.flatMap fun t => t.subterms.filter isLeaf := by
  have htop : ¬ (node c ts).isLeaf = true := by simpa [isLeaf, args] using h
  rw [subterms_node, List.filter_cons_of_neg htop, List.filter_flatMap]

theorem filter_isLeaf_subtermsUp (t : Term) :
    t.subtermsUp.filter isLeaf = t.subterms.filter isLeaf := by
  induction t with
  | node c ts ih =>
    by_cases hts : ts = []
    · subst hts
      rfl
    · have htop : ¬ (node c ts).isLeaf = true := by simpa [isLeaf, args] using hts
      rw [filter_isLeaf_subterms c ts hts, subtermsUp_node, List.filter_append,
        List.filter_flatMap, List.filter_cons_of_neg htop, List.filter_nil, List.append_nil]
      exact List.flatMap_congr ih

theorem mem_insertLetter {c d : Char} {ds : List Char} :
    c ∈ insertLetter d ds ↔ c = d ∨ c ∈ ds := by
  induction ds with
  | nil => simp [insertLetter]
  | cons e ds ih =>
    rw [insertLetter]
    split
    · simp
    · split
      · next h => simp [h]
      · simp only [List.mem_cons, ih]
        exact or_left_comm

theorem sorted_insertLetter {cs : List Char} (c : Char) (h : cs.Pairwise (· < ·)) :
    (insertLetter c cs).Pairwise (· < ·) := by
  induction cs with
  | nil => exact List.pairwise_singleton _ c
  | cons d cs ih =>
    obtain ⟨hd, hcs⟩ := List.pairwise_cons.mp h
    rw [insertLetter]
    split
    · next hcd =>
      refine .cons (fun e he => ?_) h
      rcases List.mem_cons.mp he with rfl | he
      · exact hcd
      · exact Std.lt_trans hcd (hd e he)
    · next hcd =>
      split
      · exact h
      · next hne =>
        have hdc : d < c := ((Std.lt_trichotomy c d).resolve_left hcd).resolve_left hne
        refine .cons (fun e he => ?_) (ih hcs)
        rcases mem_insertLetter.mp he with rfl | he
        · exact hdc
        · exact hd e he

theorem mem_letters : c ∈ t.letters ↔ ∃ u ∈ t.subtermsUp, u.isVariable = true ∧ u.head = c := by
  have hway (us : List Term) (cs : List Char) :
      c ∈ us.foldl (fun cs u => if u.isVariable then insertLetter u.head cs else cs) cs ↔
        c ∈ cs ∨ ∃ u ∈ us, u.isVariable = true ∧ u.head = c := by
    induction us generalizing cs with
    | nil => simp
    | cons u us ih =>
      rw [List.foldl_cons, ih, List.exists_mem_cons_iff]
      by_cases hu : u.isVariable = true
      · simp only [hu, if_true, mem_insertLetter, true_and, or_assoc, eq_comm, or_left_comm]
      · simp only [hu, Bool.false_eq_true, if_false, false_and, false_or]
  rw [letters, visit_eq_foldl, hway]
  simp

/-- The letters of a term are those at its leaves. -/
theorem mem_letters_iff : c ∈ t.letters ↔ isLetter c = true ∧ c ∈ t.leaves.map head := by
  rw [mem_letters, leaves, find_eq_filter]
  constructor
  · rintro ⟨u, hu, hv, rfl⟩
    obtain ⟨hleaf, hletter⟩ := Bool.and_eq_true_iff.mp hv
    have hdown : u ∈ t.subterms := (subtermsUp_perm_subterms t).mem_iff.mp hu
    exact ⟨hletter, List.mem_map_of_mem (List.mem_filter.mpr ⟨hdown, hleaf⟩)⟩
  · rintro ⟨hletter, hc⟩
    obtain ⟨u, hu, rfl⟩ := List.mem_map.mp hc
    obtain ⟨hdown, hleaf⟩ := List.mem_filter.mp hu
    have hup : u ∈ t.subtermsUp := (subtermsUp_perm_subterms t).mem_iff.mpr hdown
    exact ⟨u, hup, Bool.and_eq_true_iff.mpr ⟨hleaf, hletter⟩, rfl⟩

theorem sorted_letters (t : Term) : t.letters.Pairwise (· < ·) := by
  rw [letters, visit_eq_foldl]
  refine List.foldlRecOn _ _ List.Pairwise.nil ?_
  intro cs hcs u _
  split
  · exact sorted_insertLetter u.head hcs
  · exact hcs

/-- One more blank before words that end in blanks is one more behind words that begin with them. -/
theorem cons_flatMap_concat {α β : Type} (f : α → List β) (b : β) (l : List α) :
    b :: l.flatMap (fun a => f a ++ [b]) = l.flatMap (fun a => b :: f a) ++ [b] := by
  induction l with
  | nil => rfl
  | cons a l ih =>
    calc
      _ = b :: f a ++ b :: l.flatMap (fun a => f a ++ [b]) := by simp
      _ = b :: f a ++ (l.flatMap (fun a => b :: f a) ++ [b]) := by rw [ih]
      _ = _ := by simp

/-- Characters with a blank between any two of them, and one more before the first. -/
theorem cons_intercalate {cs : List Char} (h : cs ≠ []) :
    ' ' :: (" ".intercalate (cs.map String.singleton)).toList = cs.flatMap fun c => [' ', c] := by
  induction cs with
  | nil => exact absurd rfl h
  | cons c cs ih =>
    cases cs with
    | nil => simp
    | cons d cs =>
      have htail := ih (List.cons_ne_nil d cs)
      rw [List.map_cons, List.map_cons, String.intercalate_cons_cons, ← List.map_cons,
        List.flatMap_cons, ← htail]
      simp

/-- The same with the additional blank behind the last character. -/
theorem intercalate_concat {cs : List Char} (h : cs ≠ []) :
    (" ".intercalate (cs.map String.singleton)).toList ++ [' '] = cs.flatMap fun c => [c, ' '] := by
  have hshift := cons_flatMap_concat (fun c : Char => [c]) ' ' cs
  rw [← cons_intercalate h, List.cons_append] at hshift
  exact (List.cons.inj hshift).2.symm

theorem cons_polish (t : Term) :
    ' ' :: t.polish.toList = (t.subterms.map head).flatMap fun c => [' ', c] := by
  induction t with
  | node c ts ih =>
    rw [toList_polish, subterms_node, List.map_cons, List.flatMap_cons, List.map_flatMap,
      List.flatMap_assoc, List.flatMap_congr ih]
    rfl

theorem reversePolish_concat (t : Term) :
    t.reversePolish.toList ++ [' '] = (t.subtermsUp.map head).flatMap fun c => [c, ' '] := by
  induction t with
  | node c ts ih =>
    rw [toList_reversePolish, subtermsUp_node, List.map_append, List.flatMap_append,
      List.map_flatMap, List.flatMap_assoc, List.flatMap_congr ih]
    simp [head]

theorem polish_eq (t : Term) :
    t.polish = " ".intercalate ((t.subterms.map head).map String.singleton) := by
  have hne : t.subterms.map head ≠ [] := by
    obtain ⟨c, ts⟩ := t
    simp [subterms_node]
  apply String.toList_inj.mp
  exact (List.cons.inj ((cons_polish t).trans (cons_intercalate hne).symm)).2

theorem reversePolish_eq (t : Term) :
    t.reversePolish = " ".intercalate ((t.subtermsUp.map head).map String.singleton) := by
  have hne : t.subtermsUp.map head ≠ [] := by
    obtain ⟨c, ts⟩ := t
    simp [subtermsUp_node]
  apply String.toList_inj.mp
  exact List.append_cancel_right ((reversePolish_concat t).trans (intercalate_concat hne).symm)

/-- The visits and the search come to the same nodes, once each and to the leaves in the same order.
The heads on the way of the visits, with blanks between them, are the reverse Polish notation, those
on the way of the search are the Polish notation. The letters of a term are those at its leaves, and
a search for a property finds what the full search finds and has the property. -/
theorem walks_agree (t : Term) :
    t.reversePolish = " ".intercalate (t.visited.map fun u => String.singleton u.head) ∧
    t.polish = " ".intercalate (t.searched.map fun u => String.singleton u.head) ∧
    t.visited.length = t.size ∧ t.searched.length = t.size ∧ t.visited.Perm t.searched ∧
    t.visited.filter isLeaf = t.leaves ∧ t.searched.filter isLeaf = t.leaves ∧
    (∀ c, c ∈ t.letters ↔ isLetter c = true ∧ c ∈ t.leaves.map head) ∧
    t.letters.Pairwise (· < ·) ∧
    (∀ p, t.find p = t.searched.filter p) ∧
    ∀ (α : Type) (f : α → Term → α) (a : α), t.visit f a = t.visited.foldl f a := by
  have hperm := subtermsUp_perm_subterms t
  have hleaves : t.leaves = t.subterms.filter isLeaf := find_eq_filter isLeaf t
  rw [visited_eq, searched_eq, hleaves]
  refine ⟨?_, ?_, ?_, length_subterms t, hperm, filter_isLeaf_subtermsUp t, rfl, ?_,
    sorted_letters t, ?_, ?_⟩
  · rw [reversePolish_eq, List.map_map]
    rfl
  · rw [polish_eq, List.map_map]
    rfl
  · rw [hperm.length_eq, length_subterms]
  · intro c
    rw [← hleaves]
    exact mem_letters_iff
  · intro p
    exact find_eq_filter p t
  · intro α f a
    exact visit_eq_foldl f t a

end Equational.Term
