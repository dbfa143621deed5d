import Equational.Proofs.Formula.Grammar
import Equational.Proofs.Formula.Printing

namespace Equational

def isParenthesis (c : Char) : Bool := c == '(' || c == ')'

/-- The tokens `v` are the tokens `w` with some of the parentheses left out. -/
structure Sheds (v w : List Char) : Prop where
  sublist : v.Sublist w
  others_eq : v.filter (!isParenthesis ·) = w.filter (!isParenthesis ·)

variable {σ : Signature} {u v w : List Char}

namespace Sheds

theorem refl (w : List Char) : Sheds w w := ⟨List.Sublist.refl w, rfl⟩

theorem trans (h : Sheds u v) (h' : Sheds v w) : Sheds u w :=
  ⟨h.sublist.trans h'.sublist, h.others_eq.trans h'.others_eq⟩

theorem append {v' w' : List Char} (h : Sheds v w) (h' : Sheds v' w') :
    Sheds (v ++ v') (w ++ w') := by
  refine ⟨h.sublist.append h'.sublist, ?_⟩
  rw [List.filter_append, List.filter_append, h.others_eq, h'.others_eq]

theorem cons (c : Char) (h : Sheds v w) : Sheds (c :: v) (c :: w) := (refl [c]).append h

/-- A pair of parentheses around tokens may be left out. -/
theorem group (w : List Char) : Sheds w ('(' :: w ++ [')']) := by
  constructor
  · exact (List.sublist_cons_self '(' w).trans (List.sublist_append_left _ _)
  · simp [isParenthesis]

theorem count_le (h : Sheds v w) : v.countP isParenthesis ≤ w.countP isParenthesis :=
  h.sublist.countP_le

end Sheds

/-- A formula in the place of an operand may lose its parentheses. -/
theorem Formula.sheds_asOperand (f : Formula) : Sheds f.tokens f.asOperand.tokens := by
  cases f with
  | single d => exact Sheds.refl d.tokens
  | pair l op r => exact Sheds.group _

/-- A formula in the place of an operand has at most one pair of parentheses more. -/
theorem Formula.asOperand_sheds {f : Formula} (h : Sheds f.tokens w) :
    Sheds f.asOperand.tokens ('(' :: w ++ [')']) := by
  cases f with
  | single d => exact h.trans (Sheds.group w)
  | pair l op r => exact (h.cons '(').append (Sheds.refl [')'])

-- The induction is on the derivation that the term comes from. The printed one has a pair of
-- parentheses only where this one has a group.
mutual

theorem Operand.derivation_sheds {d : Operand} (h : d.Valid σ) :
    Sheds (σ.derivation d.term).asOperand.tokens d.tokens := by
  match d with
  | .atom c =>
    rw [Operand.term, Signature.derivation_leaf]
    exact Sheds.refl [c]
  | .before op d =>
    rw [Operand.term, Signature.derivation_before h.1]
    exact (Operand.derivation_sheds h.2).cons op
  | .behind d op =>
    rw [Operand.term, Signature.derivation_behind h.2]
    exact (Operand.derivation_sheds h.1).append (Sheds.refl [op])
  | .group f => exact Formula.asOperand_sheds (Formula.derivation_sheds (f := f) h)

theorem Formula.derivation_sheds {f : Formula} (h : f.Valid σ) :
    Sheds (σ.derivation f.term).tokens f.tokens := by
  match f with
  | .single d =>
    have hd : Sheds (σ.derivation d.term).asOperand.tokens d.tokens := Operand.derivation_sheds h
    exact (Formula.sheds_asOperand _).trans hd
  | .pair l op r =>
    rw [Formula.term, Signature.derivation]
    exact (Operand.derivation_sheds h.1).append ((Operand.derivation_sheds h.2.2).cons op)

end

/-- The printed formula is the one that was read with some of its parentheses left out. -/
theorem Signature.exists_sheds (hσ : σ.PrefixFree) {formula : String} {t : Term}
    (h : σ.read formula = .ok t) :
    ∃ v w, σ.tokens (σ.render .text t) = .ok v ∧ σ.tokens formula = .ok w ∧ Sheds v w := by
  have hb : σ.Builds t := builds_of_wellFormed (wellFormed_of_read h)
  obtain ⟨f, hf, hw, rfl⟩ := Formula.exists_of_read h
  exact ⟨_, _, tokens_render hσ hb, hw, Formula.derivation_sheds hf⟩

/-- Where texts can be told apart, a term is printed with the tokens of any formula that it is read
from, in the same order and with no more parentheses than that formula has. -/
theorem Signature.fewest_parentheses (σ : Signature) (hσ : σ.PrefixFree) (formula : String)
    (t : Term) (h : σ.read formula = .ok t) :
    ∃ v w, σ.tokens (σ.render .text t) = .ok v ∧ σ.tokens formula = .ok w ∧
      v.filter (!isParenthesis ·) = w.filter (!isParenthesis ·) ∧
      v.countP isParenthesis ≤ w.countP isParenthesis ∧ v.Sublist w := by
  obtain ⟨v, w, hv, hw, hs⟩ := exists_sheds hσ h
  exact ⟨v, w, hv, hw, hs.others_eq, hs.count_le, hs.sublist⟩

/-- The printed text has one pair of parentheses for four. It stands for another term, but for one
with the same tokens. -/
theorem Signature.fewest_parentheses_of_mixed :
    let σ : Signature := ⟨[.plain '!' "not" "¬" .before, .plain '?' "why" "′" .behind,
      .plain '|' "or" "∨" .between], .plain, by decide⟩
    let t : Term := .node '?' [.node '!' [.node '|' [.leaf 'A', .leaf 'B']]]
    σ.PrefixFree ∧ σ.read "(¬((A ∨ (B))))′" = .ok t ∧ σ.render .text t = "¬(A ∨ B)′" ∧
      ∃ v w, σ.tokens (σ.render .text t) = .ok v ∧ σ.tokens "(¬((A ∨ (B))))′" = .ok w ∧
        v.countP isParenthesis ≤ w.countP isParenthesis ∧ w.countP isParenthesis = 8 := by
  intro σ t
  have hσ : σ.PrefixFree := by
    unfold PrefixFree
    decide
  have hread : σ.read "(¬((A ∨ (B))))′" = .ok t :=
    toOption_eq_some_iff.mp (by decide +kernel)
  have htokens : σ.tokens "(¬((A ∨ (B))))′" =
      .ok ['(', '!', '(', '(', 'A', '|', '(', 'B', ')', ')', ')', ')', '?'] :=
    toOption_eq_some_iff.mp (by decide +kernel)
  obtain ⟨v, w, hv, hw, -, hle, -⟩ := fewest_parentheses σ hσ "(¬((A ∨ (B))))′" t hread
  refine ⟨hσ, hread, by decide, v, w, hv, hw, hle, ?_⟩
  rw [← Except.ok.inj (htokens.symm.trans hw)]
  decide

end Equational
