import Equational.Theory.Basic

namespace Equational.Presentation

def setsSymbols : List Symbol := [
  { Symbol.plain '0' "Empty set" "∅" .constant with latex := "\\emptyset" },
  { Symbol.plain '1' "Universal set" "𝓤" .constant with latex := "\\mathcal\x7bU\x7d" },
  { Symbol.plain '!' "Complement" "ᶜ" .behind with display := "∁", latex := "^\x7bc\x7d" },
  { Symbol.plain '|' "Union" "∪" .between with latex := "\\cup" },
  { Symbol.plain '&' "Intersection" "∩" .between with latex := "\\cap" },
  { Symbol.plain '-' "Set difference" "\\" .between with latex := "\\setminus" },
  { Symbol.plain '+' "Symmetric difference" "⊕" .between with latex := "\\oplus" }]

def setsRules : List Rule := [
  ⟨"assoc1", "Associativity of Union", "(x ∪ y) ∪ z", "x ∪ (y ∪ z)", Rule.basicLevel⟩,
  ⟨"assoc2", "Associativity of Intersection", "(x ∩ y) ∩ z", "x ∩ (y ∩ z)", Rule.basicLevel⟩,
  ⟨"comm1", "Commutativity of Union", "x ∪ y", "y ∪ x", Rule.basicLevel⟩,
  ⟨"comm2", "Commutativity of Intersection", "x ∩ y", "y ∩ x", Rule.basicLevel⟩,
  ⟨"dist1", "Distributivity of Intersection over Union",
    "x ∩ (y ∪ z)", "(x ∩ y) ∪ (x ∩ z)", Rule.basicLevel⟩,
  ⟨"dist2", "Distributivity of Union over Intersection",
    "x ∪ (y ∩ z)", "(x ∪ y) ∩ (x ∪ z)", Rule.basicLevel⟩,
  ⟨"id1", "Identity of Union", "x ∪ ∅", "x", Rule.basicLevel⟩,
  ⟨"id2", "Identity of Intersection", "x ∩ 𝓤", "x", Rule.basicLevel⟩,
  ⟨"comp1", "Complement with Union", "x ∪ xᶜ", "𝓤", Rule.basicLevel⟩,
  ⟨"comp2", "Complement with Intersection", "x ∩ xᶜ", "∅", Rule.basicLevel⟩,
  ⟨"defdiff", "Definition of Set Difference", "x \\ y", "x ∩ yᶜ", Rule.definitionLevel⟩,
  ⟨"defsd", "Definition of Symmetric Difference",
    "x ⊕ y", "(x \\ y) ∪ (y \\ x)", Rule.definitionLevel⟩,
  ⟨"idem1", "Idempotence of Union", "x ∪ x", "x", Rule.derivedLevel⟩,
  ⟨"idem2", "Idempotence of Intersection", "x ∩ x", "x", Rule.derivedLevel⟩,
  ⟨"dblc", "Double complement", "xᶜᶜ", "x", Rule.derivedLevel⟩,
  ⟨"dem1", "De Morgan's, ᶜ over ∪", "(x ∪ y)ᶜ", "xᶜ ∩ yᶜ", Rule.derivedLevel⟩,
  ⟨"dem2", "De Morgan's, ᶜ over ∩", "(x ∩ y)ᶜ", "xᶜ ∪ yᶜ", Rule.derivedLevel⟩,
  ⟨"ann1", "Annihilation of ∪", "x ∪ 𝓤", "𝓤", Rule.derivedLevel⟩,
  ⟨"ann2", "Annihilation of ∩", "x ∩ ∅", "∅", Rule.derivedLevel⟩,
  ⟨"abs1", "Absorption law 1", "x ∪ (x ∩ y)", "x", Rule.derivedLevel⟩,
  ⟨"abs2", "Absorption law 2", "x ∩ (x ∪ y)", "x", Rule.derivedLevel⟩,
  ⟨"cemp", "Complement of ∅", "∅ᶜ", "𝓤", Rule.derivedLevel⟩,
  ⟨"cuni", "Complement of 𝓤", "𝓤ᶜ", "∅", Rule.derivedLevel⟩]

/-- Sets, where a complement is marked behind the set. -/
def sets : Presentation where
  info :=
    { name := "set_theory"
      displayName := "Set Theory"
      description :=
        "Set theory is the mathematical study of collections of objects, called sets, " ++
        "and the relationships between them" }
  symbols := setsSymbols
  equality := .plain
  rules := setsRules

end Equational.Presentation
