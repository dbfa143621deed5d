import Equational.Proofs.Formula.Derivation

namespace Equational

/-- A list is split in one way only at an entry that is the first with a property. -/
theorem eq_of_append_cons_eq {α : Type} {P : α → Prop} {xs ys xs' ys' : List α} {a a' : α}
    (hxs : ∀ x ∈ xs, ¬ P x) (ha : P a) (hxs' : ∀ x ∈ xs', ¬ P x) (ha' : P a')
    (h : xs ++ a :: ys = xs' ++ a' :: ys') : xs = xs' ∧ a = a' ∧ ys = ys' := by
  induction xs generalizing xs' with
  | nil =>
    cases xs' with
    | nil => exact ⟨rfl, List.cons.inj h⟩
    | cons x xs' => exact absurd ((List.cons.inj h).1 ▸ ha) (hxs' x (by simp))
  | cons x xs ih =>
    cases xs' with
    | nil => exact absurd ((List.cons.inj h).1 ▸ ha') (hxs x (by simp))
    | cons x' xs' =>
      simp only [List.cons_append, List.cons.injEq] at h
      have hr := ih (fun y hy => hxs y (by simp [hy])) (fun y hy => hxs' y (by simp [hy])) h.2
      exact ⟨by rw [h.1, hr.1], hr.2⟩

variable {σ : Signature}

/-- The piece is a symbol that stands in one of the given ways. -/
def Piece.HasFixity (σ : Signature) (fs : List Fixity) (p : Piece) : Prop :=
  ∃ c, p = .token c ∧ ∃ f ∈ fs, σ.fixity? c = some f

theorem Piece.hasFixity_token_iff {fs : List Fixity} {c : Char} {f : Fixity}
    (h : σ.fixity? c = some f) : (Piece.token c).HasFixity σ fs ↔ f ∈ fs := by
  constructor
  · rintro ⟨d, hd, g, hg, hf⟩
    obtain rfl := Piece.token.inj hd
    obtain rfl := Option.some.inj (h.symm.trans hf)
    exact hg
  · intro hf
    exact ⟨c, rfl, f, hf, h⟩

theorem Piece.not_hasFixity_group {fs : List Fixity} {ps : List Piece} :
    ¬ (Piece.group ps).HasFixity σ fs := by
  rintro ⟨c, h, -⟩
  cases h

/-- A letter or a constant is no operator. -/
theorem Operand.not_hasFixity_atom {c : Char} {fs : List Fixity} (h : (Operand.atom c).Valid σ)
    (hfs : .constant ∉ fs) : ¬ (Piece.token c).HasFixity σ fs := by
  rcases h with h | h
  · rintro ⟨d, hd, f, -, hf⟩
    obtain rfl := Piece.token.inj hd
    rw [Signature.fixity?_of_isLetter h] at hf
    cases hf
  · rwa [Piece.hasFixity_token_iff h]

theorem Operand.pieces_ne_nil (d : Operand) : d.pieces ≠ [] := by
  cases d <;> simp [Operand.pieces]

/-- Outside of parentheses an operand holds no binary operator. -/
theorem Operand.not_between_of_mem {d : Operand} (h : d.Valid σ) :
    ∀ p ∈ d.pieces, ¬ p.HasFixity σ [.between] := by
  intro p hp
  match d with
  | .atom c =>
    obtain rfl := List.mem_singleton.mp hp
    exact not_hasFixity_atom h (by simp)
  | .before op d =>
    rcases List.mem_cons.mp hp with rfl | hp
    · simp [Piece.hasFixity_token_iff h.1]
    · exact not_between_of_mem h.2 p hp
  | .behind d op =>
    rcases List.mem_append.mp hp with hp | hp
    · exact not_between_of_mem h.1 p hp
    · obtain rfl := List.mem_singleton.mp hp
      simp [Piece.hasFixity_token_iff h.2]
  | .group f =>
    obtain rfl := List.mem_singleton.mp hp
    exact Piece.not_hasFixity_group

theorem Formula.pair_pieces_inj {l r l' r' : Operand} {op op' : Char}
    (h : (Formula.pair l op r).Valid σ) (h' : (Formula.pair l' op' r').Valid σ)
    (he : (Formula.pair l op r).pieces = (Formula.pair l' op' r').pieces) :
    l.pieces = l'.pieces ∧ op = op' ∧ r.pieces = r'.pieces := by
  obtain ⟨hl, ho, hr⟩ := h
  obtain ⟨hl', ho', hr'⟩ := h'
  have hs := eq_of_append_cons_eq (Operand.not_between_of_mem hl)
    ((Piece.hasFixity_token_iff ho).mpr (by simp)) (Operand.not_between_of_mem hl')
    ((Piece.hasFixity_token_iff ho').mpr (by simp)) he
  exact ⟨hs.1, Piece.token.inj hs.2.1, hs.2.2⟩

theorem Formula.single_pieces_ne_pair {d l r : Operand} {op : Char} (hd : d.Valid σ)
    (h : (Formula.pair l op r).Valid σ) :
    (Formula.single d).pieces ≠ (Formula.pair l op r).pieces := by
  intro he
  have hm : Piece.token op ∈ d.pieces := by
    change d.pieces = l.pieces ++ .token op :: r.pieces at he
    rw [he]
    simp
  exact Operand.not_between_of_mem hd _ hm ((Piece.hasFixity_token_iff h.2.1).mpr (by simp))

-- An operator before one operand and behind the other would need operators of both kinds. In all
-- other cases the outermost constructor can be told from the first or the last piece.
mutual

theorem Operand.eq_of_pieces_eq (hσ : ¬ σ.MixesUnary) {d e : Operand} (hd : d.Valid σ)
    (he : e.Valid σ) (h : d.pieces = e.pieces) : d = e := by
  match d, e with
  | .atom c, .atom c' => simpa [Operand.pieces] using h
  | .atom c, .before op e => simp [Operand.pieces, Operand.pieces_ne_nil] at h
  | .atom c, .behind e op =>
    simp [Operand.pieces, List.singleton_eq_append_iff, Operand.pieces_ne_nil] at h
  | .atom c, .group g => simp [Operand.pieces] at h
  | .before op d, .atom c => simp [Operand.pieces, Operand.pieces_ne_nil] at h
  | .before op d, .before op' e =>
    simp only [Operand.pieces, List.cons.injEq, Piece.token.injEq] at h
    rw [h.1, Operand.eq_of_pieces_eq hσ hd.2 he.2 h.2]
  | .before op d, .behind e op' => exact absurd (Signature.mixesUnary_of_fixity? hd.1 he.2) hσ
  | .before op d, .group g => simp [Operand.pieces] at h
  | .behind d op, .atom c =>
    simp [Operand.pieces, List.append_eq_singleton_iff, Operand.pieces_ne_nil] at h
  | .behind d op, .before op' e => exact absurd (Signature.mixesUnary_of_fixity? he.1 hd.2) hσ
  | .behind d op, .behind e op' =>
    obtain ⟨hp, ho⟩ := List.append_inj' h rfl
    simp only [List.cons.injEq, Piece.token.injEq, and_true] at ho
    rw [ho, Operand.eq_of_pieces_eq hσ hd.1 he.1 hp]
  | .behind d op, .group g =>
    simp [Operand.pieces, List.append_eq_singleton_iff, Operand.pieces_ne_nil] at h
  | .group f, .atom c => simp [Operand.pieces] at h
  | .group f, .before op e => simp [Operand.pieces] at h
  | .group f, .behind e op =>
    simp [Operand.pieces, List.singleton_eq_append_iff, Operand.pieces_ne_nil] at h
  | .group f, .group g =>
    simp only [Operand.pieces, List.cons.injEq, Piece.group.injEq, and_true] at h
    rw [Formula.eq_of_pieces_eq hσ hd he h]

/-- Without unary operators of both kinds the pieces determine the derivation. -/
theorem Formula.eq_of_pieces_eq (hσ : ¬ σ.MixesUnary) {f g : Formula} (hf : f.Valid σ)
    (hg : g.Valid σ) (h : f.pieces = g.pieces) : f = g := by
  match f, g with
  | .single d, .single e => rw [Operand.eq_of_pieces_eq hσ (d := d) (e := e) hf hg h]
  | .single d, .pair l op r => exact absurd h (Formula.single_pieces_ne_pair hf hg)
  | .pair l op r, .single d => exact absurd h.symm (Formula.single_pieces_ne_pair hg hf)
  | .pair l op r, .pair l' op' r' =>
    obtain ⟨hl, rfl, hr⟩ := Formula.pair_pieces_inj hf hg h
    rw [Operand.eq_of_pieces_eq hσ hf.1 hg.1 hl, Operand.eq_of_pieces_eq hσ hf.2.2 hg.2.2 hr]

end

/-- Without unary operators of both kinds a word has at most one derivation. -/
theorem Formula.eq_of_tokens_eq (hσ : ¬ σ.MixesUnary) {f g : Formula} (hf : f.Valid σ)
    (hg : g.Valid σ) (h : f.tokens = g.tokens) : f = g :=
  eq_of_pieces_eq hσ hf hg (pieces_eq_of_tokens_eq hf hg h)

end Equational
