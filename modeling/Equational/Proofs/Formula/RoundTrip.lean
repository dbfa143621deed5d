import Equational.Proofs.Formula.Grammar
import Equational.Proofs.Formula.Layers
import Equational.Proofs.Formula.Printing
import Equational.Proofs.Theory.Shipped

/-! Printed terms are read back. The text of a term may stand for another term as well, one that
has the operators before an operand and those behind it applied in another order, but then both are
printed alike. -/

namespace Equational.Signature

variable {σ : Signature}

/-- A printed term is read as a term that is printed in the same way. -/
theorem read_render (hσ : σ.PrefixFree) {t : Term} (h : σ.wellFormed t = true) :
    ∃ u, σ.read (σ.render .text t) = .ok u ∧ σ.write .text u = σ.write .text t := by
  have hb : σ.Builds t := builds_of_wellFormed h
  have hv : (σ.derivation t).Valid σ := derivation_valid hb
  obtain ⟨u, hu⟩ := Formula.readTokens_tokens hv
  obtain ⟨f, hf, hw, rfl⟩ := Formula.exists_of_readTokens hu
  refine ⟨f.term, by rw [read_eq_readTokens (tokens_render hσ hb), hu], ?_⟩
  have hp : f.pieces = (σ.derivation t).pieces := Formula.pieces_eq_of_tokens_eq hf hv hw
  rw [Formula.write_eq_of_pieces_eq hf hv hp, derivation_term hb]

theorem read_render_eq (hσ : σ.PrefixFree) (hm : ¬ σ.MixesUnary) {t : Term}
    (h : σ.wellFormed t = true) : σ.read (σ.render .text t) = .ok t := by
  have hb : σ.Builds t := builds_of_wellFormed h
  rw [read_eq_readTokens (tokens_render hσ hb),
    Formula.readTokens_tokens_eq hm (derivation_valid hb), derivation_term hb]

/-- Two terms that differ in the order of their operators have the same text. -/
theorem render_swap {op op' : Char} (h : σ.fixity? op = some .before)
    (h' : σ.fixity? op' = some .behind) (t : Term) :
    σ.render .text (.node op [.node op' [t]]) = σ.render .text (.node op' [.node op [t]]) := by
  have hb : σ.writeUnary .text op = fun operand => σ.writeHead .text op ++ operand := by
    funext operand
    simp [writeUnary, h]
  have hk : σ.writeUnary .text op' = fun operand => operand ++ σ.writeHead .text op' := by
    funext operand
    simp [writeUnary, h']
  simp only [render, write, hb, hk]
  simp [Written.asOperand, String.append_assoc]

theorem exists_not_read_render (hm : σ.MixesUnary) :
    ∃ t, σ.wellFormed t = true ∧ σ.read (σ.render .text t) ≠ .ok t := by
  obtain ⟨⟨s, hs, hf⟩, s', hs', hf'⟩ := hm
  have h : σ.fixity? s.id = some .before := by rw [fixity?_of_mem hs, hf]
  have h' : σ.fixity? s'.id = some .behind := by rw [fixity?_of_mem hs', hf']
  have hA : σ.fixity? 'A' = none := fixity?_of_isLetter (by decide)
  have hw : σ.wellFormed (.node s.id [.node s'.id [.leaf 'A']]) = true := by
    simp [wellFormed, wellFormedList, Term.leaf, h, h', hA, Fixity.operands]
    decide
  have hw' : σ.wellFormed (.node s'.id [.node s.id [.leaf 'A']]) = true := by
    simp [wellFormed, wellFormedList, Term.leaf, h, h', hA, Fixity.operands]
    decide
  by_cases hr : σ.read (σ.render .text (.node s.id [.node s'.id [.leaf 'A']])) =
      .ok (.node s.id [.node s'.id [.leaf 'A']])
  · refine ⟨_, hw', ?_⟩
    rw [← render_swap h h', hr]
    intro he
    have hid : s.id = s'.id := (Term.node.inj (Except.ok.inj he)).1
    rw [hid, h'] at h
    cases h
  · exact ⟨_, hw, hr⟩

/-- Where texts can be told apart, every printed term is read as one that is printed alike, and
always as itself exactly if there are no unary operators of both kinds. The shipped theories read
back all that they print. -/
theorem round_trip_of_text :
    (∀ σ : Signature, σ.PrefixFree →
      (∀ t, σ.wellFormed t = true →
        ∃ u, σ.read (σ.render .text t) = .ok u ∧ σ.write .text u = σ.write .text t) ∧
      ((∀ t, σ.wellFormed t = true → σ.read (σ.render .text t) = .ok t) ↔ ¬ σ.MixesUnary)) ∧
    ∀ p ∈ Library.shipped, ∃ θ, Theory.ofPresentation p = .ok θ ∧
      ∀ t, θ.signature.wellFormed t = true → θ.read (θ.signature.render .text t) = .ok t := by
  constructor
  · intro σ hσ
    refine ⟨fun t h => read_render hσ h, ?_, fun hm t h => read_render_eq hσ hm h⟩
    intro hall hm
    obtain ⟨t, hw, hne⟩ := exists_not_read_render hm
    exact hne (hall t hw)
  · intro p hp
    have hl := Library.lawful_of_shipped p hp
    have hσ : (Theory.ofLawful p hl).signature.PrefixFree := Library.prefixFree_of_shipped p hp
    have hm : ¬ (Theory.ofLawful p hl).signature.MixesUnary :=
      Library.not_mixesUnary_of_shipped p hp
    exact ⟨_, Theory.ofPresentation_of_lawful hl, fun t h => read_render_eq hσ hm h⟩

theorem round_trip_of_mixed_text :
    let σ : Signature := ⟨[.plain '!' "not" "¬" .before, .plain '?' "why" "′" .behind], .plain,
      by decide⟩
    let t : Term := .node '?' [.node '!' [.leaf 'A']]
    σ.PrefixFree ∧ σ.wellFormed t = true ∧
      (∃ u, σ.read (σ.render .text t) = .ok u ∧ σ.write .text u = σ.write .text t) ∧
      ¬ ∀ t, σ.wellFormed t = true → σ.read (σ.render .text t) = .ok t := by
  intro σ t
  have hσ : σ.PrefixFree := by
    unfold PrefixFree
    decide
  have hm : σ.MixesUnary := by
    unfold MixesUnary
    decide
  have ht : σ.wellFormed t = true := by decide
  obtain ⟨hread, hexact⟩ := round_trip_of_text.1 σ hσ
  exact ⟨hσ, ht, hread t ht, fun hall => hexact.mp hall hm⟩

end Equational.Signature
