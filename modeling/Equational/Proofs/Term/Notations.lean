import Mathlib.Data.List.Basic
import Equational.Proofs.Except
import Equational.Proofs.Formula.Derivation
import Equational.Proofs.Rewriting.Pattern
import Equational.Term.Linear

namespace Equational.Signature

open Term (node leaf)

variable {σ : Signature} {c : Char} {ts : List Term} {write : Term → List Char}
  {arrange : List Term → List Term}

/-- How many arguments a head takes. A letter takes none. -/
def operandCount (σ : Signature) (c : Char) : Nat := ((σ.fixity? c).map (·.operands)).getD 0

theorem wellFormed_node (h : σ.wellFormed (node c ts) = true) :
    ts.length = σ.operandCount c ∧ ∀ t ∈ ts, σ.wellFormed t = true := by
  obtain ⟨hhead, hargs⟩ := Bool.and_eq_true_iff.mp h
  rw [wellFormedList_eq, List.all_eq_true] at hargs
  refine ⟨?_, hargs⟩
  rw [operandCount]
  cases hf : σ.fixity? c with
  | none =>
    rw [hf, Bool.and_eq_true, List.isEmpty_iff] at hhead
    rw [hhead.1]
    rfl
  | some f =>
    rw [hf, beq_iff_eq] at hhead
    exact hhead.symm

theorem ne_open_of_wellFormed (h : σ.wellFormed (node c ts) = true) : c ≠ '(' := by
  rintro rfl
  have hf : σ.fixity? '(' = none := fixity?_of_isReserved (by decide)
  have hhead := (Bool.and_eq_true_iff.mp h).1
  rw [hf, Bool.and_eq_true] at hhead
  exact absurd hhead.2 (by decide)

/-- What is written for a well-formed term shows where it ends, whatever comes behind it. -/
def SelfDelimiting (σ : Signature) (write : Term → List Char) : Prop :=
  ∀ t u rest rest', σ.wellFormed t = true → σ.wellFormed u = true →
    write t ++ rest = write u ++ rest' → t = u ∧ rest = rest'

theorem SelfDelimiting.eq_of_write_eq (h : σ.SelfDelimiting write) {t u : Term}
    (ht : σ.wellFormed t = true) (hu : σ.wellFormed u = true) (he : write t = write u) : t = u :=
  (h t u [] [] ht hu (by rw [he])).1

/-- The head stands before the arguments, which follow in some order with a blank before each. -/
structure HeadFirst (write : Term → List Char) (arrange : List Term → List Term) : Prop where
  write_node : ∀ c ts, write (node c ts) = c :: (arrange ts).flatMap fun t => ' ' :: write t
  perm : ∀ ts, (arrange ts).Perm ts
  injective : Function.Injective arrange

/-- As many arguments can be told apart as are known to stand there. -/
theorem eq_of_flatMap_append_eq {ts us : List Term} {rest rest' : List Char}
    (h : ∀ t ∈ ts, ∀ u ∈ us, ∀ rest rest',
      write t ++ rest = write u ++ rest' → t = u ∧ rest = rest')
    (hl : ts.length = us.length)
    (he : (ts.flatMap fun t => ' ' :: write t) ++ rest =
      (us.flatMap fun u => ' ' :: write u) ++ rest') : ts = us ∧ rest = rest' := by
  induction ts generalizing us with
  | nil =>
    obtain rfl : us = [] := List.length_eq_zero_iff.mp hl.symm
    exact ⟨rfl, he⟩
  | cons t ts ih =>
    obtain ⟨u, us, rfl⟩ := List.exists_cons_of_length_eq_add_one hl.symm
    simp only [List.flatMap_cons, List.cons_append, List.append_assoc, List.cons.injEq,
      true_and] at he
    obtain ⟨rfl, hrest⟩ := h t (by simp) u (by simp) _ _ he
    obtain ⟨rfl, rfl⟩ := ih (fun v hv w hw => h v (by simp [hv]) w (by simp [hw]))
      (by simpa using hl) hrest
    exact ⟨rfl, rfl⟩

theorem HeadFirst.selfDelimiting (h : HeadFirst write arrange) : σ.SelfDelimiting write := by
  intro t
  induction t with
  | node c ts ih =>
    intro u rest rest' ht hu he
    obtain ⟨d, us⟩ := u
    rw [h.write_node, h.write_node, List.cons_append, List.cons_append] at he
    obtain ⟨rfl, hargs⟩ := List.cons.inj he
    obtain ⟨hcount, hts⟩ := wellFormed_node ht
    obtain ⟨hcount', hus⟩ := wellFormed_node hu
    have hl : (arrange ts).length = (arrange us).length := by
      rw [(h.perm ts).length_eq, (h.perm us).length_eq, hcount, hcount']
    have htold : arrange ts = arrange us ∧ rest = rest' := by
      refine eq_of_flatMap_append_eq (fun t hm u hm' rest rest' => ?_) hl hargs
      have hm := (h.perm ts).mem_iff.mp hm
      have hm' := (h.perm us).mem_iff.mp hm'
      exact ih t hm u rest rest' (hts t hm) (hus u hm')
    exact ⟨by rw [h.injective htold.1], htold.2⟩

theorem headFirst_polish : HeadFirst (·.polish.toList) id where
  write_node := Term.toList_polish
  perm := List.Perm.refl
  injective := Function.injective_id

/-- From the end, the head comes before its arguments, and these come from the last to the first. -/
theorem headFirst_reversePolish : HeadFirst (·.reversePolish.toList.reverse) List.reverse where
  write_node := by
    intro c ts
    rw [Term.toList_reversePolish, List.reverse_append, List.reverse_flatMap, List.reverse_singleton,
      List.singleton_append]
    congr 2
    funext t
    simp
  perm := List.reverse_perm
  injective := List.reverse_injective

theorem operandCount_le (σ : Signature) (c : Char) : σ.operandCount c ≤ 2 := by
  rw [operandCount]
  cases σ.fixity? c with
  | none => exact Nat.zero_le 2
  | some f => cases f <;> decide

theorem length_args_le (h : σ.wellFormed (node c ts) = true) : ts.length ≤ 2 := by
  rw [(wellFormed_node h).1]
  exact σ.operandCount_le c

/-- The bracketed form opens with a parenthesis exactly for two arguments. -/
theorem head?_bracketed (hl : ts.length ≤ 2) :
    (node c ts).bracketed.toList.head? = some (if ts.length = 2 then '(' else c) := by
  rcases ts with _ | ⟨t, _ | ⟨u, _ | ⟨v, ts⟩⟩⟩
  · rw [Term.toList_bracketed_nil]
    rfl
  · rw [Term.toList_bracketed_singleton]
    rfl
  · rw [Term.toList_bracketed_pair]
    rfl
  · simp at hl

theorem length_eq_of_bracketed {d : Char} {us : List Term} {rest rest' : List Char}
    (ht : σ.wellFormed (node c ts) = true) (hu : σ.wellFormed (node d us) = true)
    (he : (node c ts).bracketed.toList ++ rest = (node d us).bracketed.toList ++ rest') :
    ts.length = us.length := by
  have hc : c ≠ '(' := ne_open_of_wellFormed ht
  have hd : d ≠ '(' := ne_open_of_wellFormed hu
  have hopen : (if ts.length = 2 then '(' else c) = if us.length = 2 then '(' else d := by
    have hhead := congrArg List.head? he
    rw [List.head?_append, List.head?_append, head?_bracketed (length_args_le ht),
      head?_bracketed (length_args_le hu)] at hhead
    exact Option.some.inj hhead
  by_cases h : ts.length = 2
  · by_cases h' : us.length = 2
    · rw [h, h']
    · rw [if_pos h, if_neg h'] at hopen
      exact absurd hopen.symm hd
  · by_cases h' : us.length = 2
    · rw [if_neg h, if_pos h'] at hopen
      exact absurd hopen hc
    · rw [if_neg h, if_neg h'] at hopen
      rw [(wellFormed_node ht).1, (wellFormed_node hu).1, hopen]

theorem selfDelimiting_bracketed : σ.SelfDelimiting (·.bracketed.toList) := by
  intro t
  induction t with
  | node c ts ih =>
    intro u rest rest' ht hu he
    obtain ⟨d, us⟩ := u
    have hl := length_eq_of_bracketed ht hu he
    have hle := length_args_le ht
    have hts := (wellFormed_node ht).2
    have hus := (wellFormed_node hu).2
    rcases ts with _ | ⟨t, _ | ⟨t', _ | ⟨v, ts⟩⟩⟩
    · obtain rfl : us = [] := List.length_eq_zero_iff.mp hl.symm
      simp only [Term.toList_bracketed_nil, List.singleton_append, List.cons.injEq] at he
      exact ⟨by rw [he.1], he.2⟩
    · obtain ⟨u, rfl⟩ := List.length_eq_one_iff.mp hl.symm
      simp only [Term.toList_bracketed_singleton, List.cons_append, List.append_assoc,
        List.cons.injEq, true_and] at he
      obtain ⟨rfl, harg⟩ := he
      obtain ⟨rfl, hrest⟩ := ih t (by simp) u _ _ (hts t (by simp)) (hus u (by simp)) harg
      exact ⟨rfl, (List.cons.inj hrest).2⟩
    · obtain ⟨u, u', rfl⟩ := List.length_eq_two.mp hl.symm
      simp only [Term.toList_bracketed_pair, List.cons_append, List.append_assoc,
        List.cons.injEq, true_and] at he
      -- the first argument shows where the head stands, and the head where the second one begins
      obtain ⟨rfl, hhead⟩ := ih t (by simp) u _ _ (hts t (by simp)) (hus u (by simp)) he
      simp only [List.cons.injEq, true_and] at hhead
      obtain ⟨rfl, harg⟩ := hhead
      obtain ⟨rfl, hrest⟩ := ih t' (by simp) u' _ _ (hts t' (by simp)) (hus u' (by simp)) harg
      exact ⟨rfl, (List.cons.inj hrest).2⟩
    · simp at hle

/-- Two well-formed terms that are written alike in one of the notations are equal. -/
theorem notations_determine {t u : Term} (ht : σ.wellFormed t = true) (hu : σ.wellFormed u = true)
    (h : t.polish = u.polish ∨ t.reversePolish = u.reversePolish ∨ t.bracketed = u.bracketed) :
    t = u := by
  rcases h with h | h | h
  · exact headFirst_polish.selfDelimiting.eq_of_write_eq ht hu (by rw [h])
  · exact headFirst_reversePolish.selfDelimiting.eq_of_write_eq ht hu (by rw [h])
  · exact selfDelimiting_bracketed.eq_of_write_eq ht hu (by rw [h])

/-- One formula is read from two spellings, and no notation confuses the negation of a disjunction
with that of its left side. -/
theorem notations_determine_of_negation :
    let σ : Signature :=
      ⟨[.plain '|' "or" "∨" .between, .plain '!' "not" "¬" .before], .plain, by decide⟩
    let outer : Term := node '!' [node '|' [leaf 'p', leaf 'q']]
    let inner : Term := node '|' [node '!' [leaf 'p'], leaf 'q']
    (∃ t u, σ.read "¬(p ∨ q)" = .ok t ∧ σ.read "(¬((p) ∨ q))" = .ok u ∧
      t.reversePolish = "p q | !" ∧ u.reversePolish = "p q | !" ∧ t = u) ∧
    σ.wellFormed outer = true ∧ σ.wellFormed inner = true ∧
    outer.polish ≠ inner.polish ∧ outer.reversePolish ≠ inner.reversePolish ∧
      outer.bracketed ≠ inner.bracketed := by
  intro σ outer inner
  have hout : σ.wellFormed outer = true := by decide
  have hin : σ.wellFormed inner = true := by decide
  have hne : outer ≠ inner := by decide
  have hword : outer.reversePolish = "p q | !" := by decide
  have hread : σ.read "¬(p ∨ q)" = .ok outer := toOption_eq_some_iff.mp (by decide +kernel)
  have hread' : σ.read "(¬((p) ∨ q))" = .ok outer :=
    toOption_eq_some_iff.mp (by decide +kernel)
  refine ⟨⟨outer, outer, hread, hread', hword, hword, ?_⟩, hout, hin, ?_, ?_, ?_⟩
  · exact notations_determine hout hout (.inr (.inl (hword.trans hword.symm)))
  · exact fun he => hne (notations_determine hout hin (.inl he))
  · exact fun he => hne (notations_determine hout hin (.inr (.inl he)))
  · exact fun he => hne (notations_determine hout hin (.inr (.inr he)))

/-- A head with any number of arguments would not show where they end. -/
example : (node '!' [leaf 'p', leaf 'q']).polish = (node '!' [node 'p' [leaf 'q']]).polish := by
  decide

end Equational.Signature
