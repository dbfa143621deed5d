import Equational.Library
import Equational.Proofs.Formula.Spelling

namespace Equational

/-- What a lawful presentation is built into. -/
def Theory.ofLawful (p : Presentation) (h : Signature.Lawful p.symbols) : Theory :=
  ⟨p.info, ⟨p.symbols, p.equality, h⟩, p.rules, ∅, none,
    readable ⟨p.symbols, p.equality, h⟩ .theory p.rules⟩

theorem Theory.ofPresentation_of_lawful {p : Presentation} (h : Signature.Lawful p.symbols) :
    ofPresentation p = .ok (ofLawful p h) := by
  rw [ofPresentation, Signature.ofSymbols_of_lawful h]
  rfl

namespace Library

theorem lawful_of_shipped : ∀ p ∈ shipped, Signature.Lawful p.symbols := by decide

theorem prefixFree_of_shipped : ∀ p ∈ shipped, ∀ s ∈ p.symbols, ∀ t ∈ p.symbols,
    s ≠ t → ¬ s.text.toList <+: t.text.toList := by decide

theorem not_mixesUnary_of_shipped : ∀ p ∈ shipped,
    ¬ ((∃ s ∈ p.symbols, s.fixity = .before) ∧ ∃ s ∈ p.symbols, s.fixity = .behind) := by decide

end Library

/-- The theory of sets before any problem has been loaded. -/
def Theory.sets : Theory :=
  ofLawful .sets (Library.lawful_of_shipped .sets (by simp [Library.shipped]))

theorem Theory.ofPresentation_sets : ofPresentation .sets = .ok sets :=
  ofPresentation_of_lawful _

end Equational
