import Equational.Proofs.Theory.Loading
import Equational.Proofs.Theory.Shipped

namespace Equational.Library

theorem get?_put_self (L : Library) (name : String) (θ : Theory) :
    (L.put name θ).get? name = some θ := SortedMap.get?_insert_self _ _ _

theorem get?_put_of_ne (L : Library) {name other : String} (θ : Theory) (h : other ≠ name) :
    (L.put name θ).get? other = L.get? other := SortedMap.get?_insert_of_ne _ _ h

/-- Putting back a theory that is presented as before. -/
theorem presented_put {L L₀ : Library}
    (h : ∀ name, (L.get? name).map Theory.presented = (L₀.get? name).map Theory.presented)
    {name : String} {θ θ' : Theory} (hθ : L.get? name = some θ)
    (hp : θ'.presented = θ.presented) (other : String) :
    ((L.put name θ').get? other).map Theory.presented =
      (L₀.get? other).map Theory.presented := by
  by_cases ho : other = name
  · rw [ho, get?_put_self, ← h name, hθ, Option.map_some, Option.map_some, hp]
  · rw [get?_put_of_ne _ _ ho, h]

theorem get_eq_ok_iff {L : Library} {name : String} {θ : Theory} :
    L.get name = .ok θ ↔ L.get? name = some θ := by
  rw [get]
  cases L.get? name <;> simp

theorem get_of_get?_eq_none {L : Library} {name : String} (h : L.get? name = none) :
    L.get name = .error (.notFound name) := by
  rw [get, h]

theorem add_eq_ok_iff {L L' : Library} {p : Presentation} :
    L.add p = .ok L' ↔
      ∃ θ, Theory.ofPresentation p = .ok θ ∧ L.contains θ.name = false ∧ L' = L.put θ.name θ := by
  rw [add]
  cases Theory.ofPresentation p with
  | error e => simp
  | ok θ =>
    simp only [register]
    cases hc : L.contains θ.name with
    | true => simp [hc]
    | false =>
      simp [hc]
      exact eq_comm

/-- A library of presentations holds only theories that are built from them. -/
theorem exists_presentation_of_get? {ps : List Presentation} {L : Library}
    (h : ofPresentations ps = .ok L) {name : String} {θ : Theory} (hθ : L.get? name = some θ) :
    ∃ p ∈ ps, Theory.ofPresentation p = .ok θ := by
  have key : ∀ (ps : List Presentation) (L₀ : Library), ps.foldlM add L₀ = .ok L →
      L₀.get? name = some θ ∨ ∃ p ∈ ps, Theory.ofPresentation p = .ok θ := by
    intro ps
    induction ps with
    | nil =>
      intro L₀ hL
      obtain rfl := Except.ok.inj hL
      exact .inl hθ
    | cons p ps ih =>
      intro L₀ hL
      rw [List.foldlM_cons] at hL
      cases ha : L₀.add p with
      | error e =>
        rw [ha] at hL
        cases hL
      | ok L₁ =>
        rw [ha] at hL
        obtain ⟨θ', hθ', -, rfl⟩ := add_eq_ok_iff.mp ha
        rcases ih _ hL with hg | ⟨q, hq, hqθ⟩
        · by_cases hn : name = θ'.name
          · rw [hn, get?_put_self] at hg
            exact .inr ⟨p, by simp, by rw [hθ', Option.some.inj hg]⟩
          · rw [get?_put_of_ne _ _ hn] at hg
            exact .inl hg
        · exact .inr ⟨q, List.mem_cons_of_mem _ hq, hqθ⟩
  rcases key ps empty h with hg | hp
  · cases hg
  · exact hp

theorem exists_ofPresentations_shipped : ∃ L, ofPresentations shipped = .ok L := by
  have hok : (ofPresentations shipped).isOk = true := by decide +kernel
  exact isOk_eq_true_iff.mp hok

/-- What can be computed of the library of the shipped theories. -/
theorem exists_shipped_of_any {f : Library → Bool}
    (h : (ofPresentations shipped).toOption.any f = true) :
    ∃ L, ofPresentations shipped = .ok L ∧ f L = true := by
  cases hL : ofPresentations shipped with
  | ok L =>
    rw [hL] at h
    exact ⟨L, rfl, h⟩
  | error e =>
    rw [hL] at h
    cases h

end Equational.Library
