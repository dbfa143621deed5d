import Equational.Proofs.Rewriting.Matching

namespace Equational

namespace Bindings

variable {b b₀ s : Bindings}

/-- What is bound in `b` is bound to the same in `s`. -/
def Extends (s b : Bindings) : Prop := ∀ x t, b.get? x = some t → s.get? x = some t

theorem extends_refl (b : Bindings) : b.Extends b := fun _ _ hx => hx

theorem Extends.trans {d : Bindings} (h : s.Extends d) (h' : d.Extends b) : s.Extends b :=
  fun x t hx => h x t (h' x t hx)

theorem extends_insert {x : Char} (t : Term) (h : b.get? x = none) :
    Extends (b.insert x t) b := by
  intro y u hy
  have hne : y ≠ x := by
    rintro rfl
    simp [h] at hy
  rwa [SortedMap.get?_insert_of_ne b t hne]

theorem Extends.below_close (h : s.Extends b) : b.Below s.close := by
  intro x t hx
  rw [close, h x t hx, Option.getD_some]

theorem close_of_isSome {x : Char} (h : (b.get? x).isSome) : b.get? x = some (b.close x) := by
  obtain ⟨t, ht⟩ := Option.isSome_iff_exists.mp h
  rw [close, ht, Option.getD_some]

/-- Old variables that are bound afterwards too are bound to nothing else, if the old bindings are
below what the new ones put for them. -/
theorem extends_of_below_close (h : b₀.Below b.close)
    (hbound : ∀ x, (b₀.get? x).isSome → (b.get? x).isSome) : b.Extends b₀ := by
  intro x t hx
  have hclose : b.close x = t := h x t hx
  rw [close_of_isSome (hbound x (Option.isSome_of_eq_some hx)), hclose]

end Bindings

namespace Term

variable {p t : Term} {b b₀ s : Bindings}

theorem close_eq_of_matchAgainst (h : p.matchAgainst t b₀ = .ok b) :
    b₀.Below b.close ∧ b.instantiate p = t := by
  rw [Bindings.instantiate_eq_close]
  exact (exists_matchAgainst_below_iff p t b₀ b.close).mp ⟨b, h, b.below_close⟩

/-- A match keeps what was bound before. -/
theorem extends_of_matchAgainst (h : p.matchAgainst t b₀ = .ok b) : b.Extends b₀ :=
  Bindings.extends_of_below_close (close_eq_of_matchAgainst h).1
    fun x hx => (isSome_get?_matchAgainst h x).mpr (.inl hx)

/-- Bindings above the old ones under which the pattern becomes the term make the match succeed,
with bindings that are below them. -/
theorem exists_matchAgainst_of_extends (hs : s.Extends b₀) (ht : s.instantiate p = t) :
    ∃ b, p.matchAgainst t b₀ = .ok b ∧ b.Below s.close := by
  refine (exists_matchAgainst_below_iff p t b₀ s.close).mpr ⟨hs.below_close, ?_⟩
  rw [← Bindings.instantiate_eq_close, ht]

theorem get?_eq_of_matchAgainst (h : p.matchAgainst t b₀ = .ok b) (hs : s.Extends b₀)
    (ht : s.instantiate p = t) {x : Char} (hx : x ∈ p.patternVariables)
    (hsx : (s.get? x).isSome) : s.get? x = b.get? x := by
  obtain ⟨b', hb', hbelow⟩ := exists_matchAgainst_of_extends hs ht
  obtain rfl : b = b' := Except.ok.inj (h.symm.trans hb')
  have hbx : (b.get? x).isSome := (isSome_get?_matchAgainst h x).mpr (.inr hx)
  have hclose : s.close x = b.close x := hbelow x _ (Bindings.close_of_isSome hbx)
  rw [Bindings.close_of_isSome hsx, Bindings.close_of_isSome hbx, hclose]

/-- A match succeeds exactly if some bindings above the old ones make the pattern the given term.
The bindings that it finds keep the old ones, bind the variables of the pattern and no others anew,
make the pattern the term, and agree on its variables with all bindings that do the same. -/
theorem matchAgainst_finds_least (p t : Term) (b₀ : Bindings) :
    ((∃ b, p.matchAgainst t b₀ = .ok b) ↔ ∃ s : Bindings, s.Extends b₀ ∧ s.instantiate p = t) ∧
    ∀ b, p.matchAgainst t b₀ = .ok b →
      b.Extends b₀ ∧
      (∀ x, (b.get? x).isSome ↔ (b₀.get? x).isSome ∨ x ∈ p.patternVariables) ∧
      b.instantiate p = t ∧
      ∀ s : Bindings, s.Extends b₀ → (∀ x ∈ p.patternVariables, (s.get? x).isSome) →
        s.instantiate p = t → ∀ x ∈ p.patternVariables, s.get? x = b.get? x := by
  have hkeeps (b : Bindings) (h : p.matchAgainst t b₀ = .ok b) :
      b.Extends b₀ ∧ b.instantiate p = t :=
    ⟨extends_of_matchAgainst h, (close_eq_of_matchAgainst h).2⟩
  constructor
  · constructor
    · rintro ⟨b, h⟩
      exact ⟨b, hkeeps b h⟩
    · rintro ⟨s, hs, ht⟩
      obtain ⟨b, h, -⟩ := exists_matchAgainst_of_extends hs ht
      exact ⟨b, h⟩
  · intro b h
    refine ⟨(hkeeps b h).1, isSome_get?_matchAgainst h, (hkeeps b h).2, ?_⟩
    intro s hs hall ht x hx
    exact get?_eq_of_matchAgainst h hs ht hx (hall x hx)

/-- The pattern `x | !x` against `A | !A`, where `z` has been bound before. The bindings `s` make
the pattern the term too, and bind a letter beside it. -/
theorem matchAgainst_finds_least_of_repeated :
    let p : Term := node '|' [leaf 'x', node '!' [leaf 'x']]
    let t : Term := node '|' [leaf 'A', node '!' [leaf 'A']]
    let b₀ : Bindings := (∅ : Bindings).insert 'z' (leaf 'B')
    let b : Bindings := b₀.insert 'x' (leaf 'A')
    let s : Bindings := b.insert 'y' (leaf 'x')
    p.matchAgainst t b₀ = .ok b ∧ b.Extends b₀ ∧ b.instantiate p = t ∧ s.Extends b₀ ∧
      s.instantiate p = t ∧ s.get? 'x' = b.get? 'x' := by
  intro p t b₀ b s
  have hmatch : p.matchAgainst t b₀ = .ok b := rfl
  obtain ⟨hb, -, hp, hleast⟩ := (matchAgainst_finds_least p t b₀).2 b hmatch
  have hfresh : b.get? 'y' = none := by decide
  have hs : s.Extends b₀ := fun x u hx => Bindings.extends_insert _ hfresh x u (hb x u hx)
  have ht : s.instantiate p = t := by decide
  have hvars : p.patternVariables = ['x', 'x'] := by decide
  have hall (x : Char) (hx : x ∈ p.patternVariables) : (s.get? x).isSome := by
    obtain rfl : x = 'x' := by simpa [hvars] using hx
    rfl
  exact ⟨hmatch, hb, hp, hs, ht, hleast s hs hall ht 'x' (by simp [hvars])⟩

end Term

end Equational
