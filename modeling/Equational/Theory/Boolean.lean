import Equational.Theory.Basic

namespace Equational.Presentation

def booleanSymbols : List Symbol := [
  .plain '0' "Zero" "0" .constant,
  .plain '1' "One" "1" .constant,
  .plain '!' "Complement" "'" .behind,
  { Symbol.plain '|' "Boolean OR" "∨" .between with latex := "\\lor" },
  { Symbol.plain '&' "Boolean AND" "∧" .between with latex := "\\land" }]

def booleanRules : List Rule := [
  ⟨"assoc_or", "Associativity of OR", "(x ∨ y) ∨ z", "x ∨ (y ∨ z)", Rule.basicLevel⟩,
  ⟨"assoc_and", "Associativity of AND", "(x ∧ y) ∧ z", "x ∧ (y ∧ z)", Rule.basicLevel⟩,
  ⟨"comm_or", "Commutativity of OR", "x ∨ y", "y ∨ x", Rule.basicLevel⟩,
  ⟨"comm_and", "Commutativity of AND", "x ∧ y", "y ∧ x", Rule.basicLevel⟩,
  ⟨"dist_and_or", "Distributivity of AND over OR",
    "x ∧ (y ∨ z)", "(x ∧ y) ∨ (x ∧ z)", Rule.basicLevel⟩,
  ⟨"dist_or_and", "Distributivity of OR over AND",
    "x ∨ (y ∧ z)", "(x ∨ y) ∧ (x ∨ z)", Rule.basicLevel⟩,
  ⟨"id_or", "Identity of OR", "x ∨ 0", "x", Rule.basicLevel⟩,
  ⟨"id_and", "Identity of AND", "x ∧ 1", "x", Rule.basicLevel⟩,
  ⟨"comp_or", "Complement with OR", "x ∨ x'", "1", Rule.basicLevel⟩,
  ⟨"comp_and", "Complement with AND", "x ∧ x'", "0", Rule.basicLevel⟩,
  ⟨"idem_or", "Idempotence of OR", "x ∨ x", "x", Rule.derivedLevel⟩,
  ⟨"idem_and", "Idempotence of AND", "x ∧ x", "x", Rule.derivedLevel⟩,
  ⟨"dbl_comp", "Double complement", "x''", "x", Rule.derivedLevel⟩,
  ⟨"ann_or", "Annihilation of OR", "x ∨ 1", "1", Rule.derivedLevel⟩,
  ⟨"ann_and", "Annihilation of AND", "x ∧ 0", "0", Rule.derivedLevel⟩,
  ⟨"dem_or", "De Morgan's, ' over OR", "(x ∨ y)'", "x' ∧ y'", Rule.derivedLevel⟩,
  ⟨"dem_and", "De Morgan's, ' over AND", "(x ∧ y)'", "x' ∨ y'", Rule.derivedLevel⟩,
  ⟨"comp_zero", "Complement of 0", "0'", "1", Rule.derivedLevel⟩,
  ⟨"comp_one", "Complement of 1", "1'", "0", Rule.derivedLevel⟩]

/-- Boolean algebra, where a complement is marked behind its operand. -/
def boolean : Presentation where
  info :=
    { name := "bool_alg"
      displayName := "Boolean Algebra"
      description :=
        "Boolean algebra with ∨, ∧, ' operators and constants 0, 1" }
  symbols := booleanSymbols
  equality := .plain
  rules := booleanRules

end Equational.Presentation
