import Equational.Proofs.Semantics.Valuation
import Equational.Proofs.Term.Walks
import Equational.Proofs.Theory.Shipped

namespace Equational

/-- What the symbols of the shipped theories mean, by their ids: falsehood, truth, negation,
disjunction, conjunction, difference, exclusive disjunction, implication and equivalence. -/
def boolean : Char → List Bool → Bool
  | '0', [] => false
  | '1', [] => true
  | '!', [a] => !a
  | '|', [a, b] => a || b
  | '&', [a, b] => a && b
  | '-', [a, b] => a && !b
  | '+', [a, b] => a ^^ b
  | '>', [a, b] => !a || b
  | '~', [a, b] => a == b
  | _, _ => false

namespace Term

theorem mem_foldr_insertLetter {c : Char} {cs ds : List Char} :
    c ∈ cs.foldr insertLetter ds ↔ c ∈ cs ∨ c ∈ ds := by
  induction cs with
  | nil => simp
  | cons d cs ih => rw [List.foldr_cons, mem_insertLetter, ih, List.mem_cons, or_assoc]

universe u

variable {α : Type u} {A : Char → List α → α}

/-- The value of a term depends on its own letters only. -/
theorem eval_congr {v w : Char → α} {t : Term} (h : ∀ c ∈ t.letters, v c = w c) :
    t.eval A v = t.eval A w := by
  induction t with
  | node c ts ih =>
    by_cases hl : (ts.isEmpty && isLetter c) = true
    · have hm : c ∈ (node c ts).letters :=
        mem_letters.mpr ⟨node c ts, by simp [subtermsUp], hl, rfl⟩
      rw [eval, eval, if_pos hl, if_pos hl, h c hm]
    · have hl' : (ts.isEmpty && isLetter c) = false := by simpa using hl
      rw [eval_node hl', eval_node hl']
      congr 1
      apply List.map_congr_left
      intro t ht
      apply ih t ht
      intro d hd
      obtain ⟨u, hu, hv, he⟩ := mem_letters.mp hd
      apply h d
      refine mem_letters.mpr ⟨u, ?_, hv, he⟩
      rw [subtermsUp, subtermsUpList_eq]
      exact List.mem_append_left _ (List.mem_flatMap.mpr ⟨t, ht, hu⟩)

end Term

/-- A list with a valuation for all choices of values for some letters. -/
def assignments : List Char → List (Char → Bool)
  | [] => [fun _ => false]
  | c :: cs =>
    (assignments cs).flatMap fun v =>
      [fun d => if d = c then false else v d, fun d => if d = c then true else v d]

theorem exists_assignment (cs : List Char) (v : Char → Bool) :
    ∃ w ∈ assignments cs, ∀ c ∈ cs, w c = v c := by
  induction cs with
  | nil => exact ⟨_, List.mem_singleton.mpr rfl, by simp⟩
  | cons c cs ih =>
    obtain ⟨w, hw, hv⟩ := ih
    refine ⟨fun d => if d = c then v c else w d, ?_, ?_⟩
    · refine List.mem_flatMap.mpr ⟨w, hw, ?_⟩
      cases v c <;> simp
    · intro d hd
      by_cases hdc : d = c
      · simp [hdc]
      · simp only [if_neg hdc]
        exact hv d ((List.mem_cons.mp hd).resolve_left hdc)

namespace Equation

/-- Both sides have the same truth value under every valuation. -/
def isTautology (e : Equation) : Bool :=
  (assignments (e.lhs.letters.foldr Term.insertLetter e.rhs.letters)).all fun v =>
    e.lhs.eval boolean v == e.rhs.eval boolean v

theorem isTautology_iff {e : Equation} :
    e.isTautology = true ↔ ∀ v, e.lhs.eval boolean v = e.rhs.eval boolean v := by
  rw [isTautology, List.all_eq_true]
  constructor
  · intro h v
    obtain ⟨w, hw, hv⟩ :=
      exists_assignment (e.lhs.letters.foldr Term.insertLetter e.rhs.letters) v
    have hl : e.lhs.eval boolean w = e.lhs.eval boolean v :=
      Term.eval_congr fun c hc => hv c (Term.mem_foldr_insertLetter.mpr (.inl hc))
    have hr : e.rhs.eval boolean w = e.rhs.eval boolean v :=
      Term.eval_congr fun c hc => hv c (Term.mem_foldr_insertLetter.mpr (.inr hc))
    rw [← hl, ← hr]
    exact beq_iff_eq.mp (h w hw)
  · intro h v _
    exact beq_iff_eq.mpr (h v)

theorem holds_of_isTautology {e : Equation} (h : e.isTautology = true) (v : Char → Bool) :
    e.Holds boolean v :=
  fun w _ => isTautology_iff.mp h w

end Equation

namespace Library

/-- Every rule of a shipped theory that can be read is a tautology. -/
theorem isTautology_of_shipped : ∀ p ∈ shipped, ∀ h : Signature.Lawful p.symbols,
    ∀ d ∈ (Theory.ofLawful p h).schemas, d.equation.isTautology = true := by
  have hall : ∀ p ∈ shipped, (Theory.ofPresentation p).toOption.any
      (·.schemas.all (·.equation.isTautology)) = true := by decide +kernel
  intro p hp h
  have hp' := hall p hp
  rw [Theory.ofPresentation_of_lawful h] at hp'
  exact List.all_eq_true.mp hp'

end Library

end Equational
