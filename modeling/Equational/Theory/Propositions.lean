import Equational.Theory.Basic

namespace Equational.Presentation

def propositionsSymbols : List Symbol := [
  { Symbol.plain '0' "False" "⊥" .constant with latex := "\\bot" },
  { Symbol.plain '1' "True" "⊤" .constant with latex := "\\top" },
  { Symbol.plain '!' "Negation" "¬" .before with latex := "\\neg" },
  { Symbol.plain '|' "Disjunction" "∨" .between with latex := "\\lor" },
  { Symbol.plain '&' "Conjunction" "∧" .between with latex := "\\land" },
  { Symbol.plain '>' "Implication" "→" .between with latex := "\\rightarrow" },
  { Symbol.plain '~' "Biconditional" "↔" .between with latex := "\\leftrightarrow" }]

def propositionsRules : List Rule := [
  ⟨"assoc_or", "Associativity of OR", "(p ∨ q) ∨ r", "p ∨ (q ∨ r)", Rule.basicLevel⟩,
  ⟨"assoc_and", "Associativity of AND", "(p ∧ q) ∧ r", "p ∧ (q ∧ r)", Rule.basicLevel⟩,
  ⟨"comm_or", "Commutativity of OR", "p ∨ q", "q ∨ p", Rule.basicLevel⟩,
  ⟨"comm_and", "Commutativity of AND", "p ∧ q", "q ∧ p", Rule.basicLevel⟩,
  ⟨"dist_and_or", "Distributivity of AND over OR",
    "p ∧ (q ∨ r)", "(p ∧ q) ∨ (p ∧ r)", Rule.basicLevel⟩,
  ⟨"dist_or_and", "Distributivity of OR over AND",
    "p ∨ (q ∧ r)", "(p ∨ q) ∧ (p ∨ r)", Rule.basicLevel⟩,
  ⟨"id_or", "Identity of OR", "p ∨ ⊥", "p", Rule.basicLevel⟩,
  ⟨"id_and", "Identity of AND", "p ∧ ⊤", "p", Rule.basicLevel⟩,
  ⟨"comp_or", "Complement with OR", "p ∨ ¬p", "⊤", Rule.basicLevel⟩,
  ⟨"comp_and", "Complement with AND", "p ∧ ¬p", "⊥", Rule.basicLevel⟩,
  ⟨"impl_def", "Definition of Implication", "p → q", "¬p ∨ q", Rule.definitionLevel⟩,
  ⟨"bicond_def", "Definition of Bi-implication",
    "p ↔ q", "(p → q) ∧ (q → p)", Rule.definitionLevel⟩,
  ⟨"idem_or", "Idempotence of OR", "p ∨ p", "p", Rule.derivedLevel⟩,
  ⟨"idem_and", "Idempotence of AND", "p ∧ p", "p", Rule.derivedLevel⟩,
  ⟨"dbl_neg", "Double negation", "¬¬p", "p", Rule.derivedLevel⟩,
  ⟨"ann_or", "Annihilation of OR", "p ∨ ⊤", "⊤", Rule.derivedLevel⟩,
  ⟨"ann_and", "Annihilation of AND", "p ∧ ⊥", "⊥", Rule.derivedLevel⟩,
  ⟨"dem_or", "De Morgan's, ¬ over OR", "¬(p ∨ q)", "¬p ∧ ¬q", Rule.derivedLevel⟩,
  ⟨"dem_and", "De Morgan's, ¬ over AND", "¬(p ∧ q)", "¬p ∨ ¬q", Rule.derivedLevel⟩,
  ⟨"comp_false", "Complement of ⊥", "¬⊥", "⊤", Rule.derivedLevel⟩,
  ⟨"comp_true", "Complement of ⊤", "¬⊤", "⊥", Rule.derivedLevel⟩,
  ⟨"abs_and_or", "Absorption of AND over OR", "p ∧ (p ∨ q)", "p", Rule.derivedLevel⟩,
  ⟨"abs_or_and", "Absorption of OR over AND", "p ∨ (p ∧ q)", "p", Rule.derivedLevel⟩]

/-- Propositional logic, where a negation is marked before its operand. -/
def propositions : Presentation where
  info :=
    { name := "prop_logic"
      displayName := "Propositional Logic"
      description :=
        "Propositional logic is the branch of logic that studies how truth values of " ++
        "whole statements (propositions) combine and relate using logical connectives " ++
        "like AND, OR, and NOT." }
  symbols := propositionsSymbols
  equality := ⟨"≡", "≡", "\\equiv"⟩
  rules := propositionsRules

end Equational.Presentation
