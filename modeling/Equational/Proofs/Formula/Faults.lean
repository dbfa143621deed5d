import Equational.Proofs.Except
import Equational.Proofs.Formula.Grammar
import Equational.Proofs.Formula.Lexemes

namespace Equational

/-- How many groups the tokens leave open. It is negative if they close more than they open. -/
def parenthesisDepth (w : List Char) : Int := w.count '(' - w.count ')'

theorem parenthesisDepth_append (v w : List Char) :
    parenthesisDepth (v ++ w) = parenthesisDepth v + parenthesisDepth w := by
  simp only [parenthesisDepth, List.count_append]
  omega

theorem parenthesisDepth_cons (c : Char) (w : List Char) :
    parenthesisDepth (c :: w) = parenthesisDepth [c] + parenthesisDepth w :=
  parenthesisDepth_append [c] w

theorem parenthesisDepth_singleton {c : Char} (ho : c ≠ '(') (hc : c ≠ ')') :
    parenthesisDepth [c] = 0 := by
  simp [parenthesisDepth, ho, hc]

/-- Where `n` groups are open before the tokens, they close one that is not open. -/
def Underflows (n : Int) (w : List Char) : Prop := ∃ p, p <+: w ∧ n + parenthesisDepth p < 0

theorem not_underflows_nil {n : Int} (hn : 0 ≤ n) : ¬ Underflows n [] := by
  rintro ⟨p, hp, h⟩
  obtain rfl := List.prefix_nil.mp hp
  exact Int.not_lt.mpr hn (by simpa [parenthesisDepth] using h)

theorem underflows_cons {n : Int} (hn : 0 ≤ n) {c : Char} {w : List Char} :
    Underflows n (c :: w) ↔ Underflows (n + parenthesisDepth [c]) w := by
  constructor
  · rintro ⟨_ | ⟨d, q⟩, hp, h⟩
    · exact absurd ⟨[], List.nil_prefix, h⟩ (not_underflows_nil hn)
    · obtain ⟨rfl, hq⟩ := List.cons_prefix_cons.mp hp
      rw [parenthesisDepth_cons] at h
      exact ⟨q, hq, by omega⟩
  · rintro ⟨q, hq, h⟩
    refine ⟨c :: q, List.cons_prefix_cons.mpr ⟨rfl, hq⟩, ?_⟩
    rw [parenthesisDepth_cons]
    omega

theorem parenthesisFault?_open (n : Nat) (w : List Char) :
    parenthesisFault? n ('(' :: w) = parenthesisFault? (n + 1) w := by
  simp [parenthesisFault?]

theorem parenthesisFault?_cons {c : Char} (ho : c ≠ '(') (hc : c ≠ ')') (n : Nat) (w : List Char) :
    parenthesisFault? n (c :: w) = parenthesisFault? n w := by
  simp [parenthesisFault?, ho, hc]

/-- Which parenthesis is found to be wrong, if `n` groups are open before the tokens. -/
theorem parenthesisFault?_cases (n : Nat) (w : List Char) :
    (Underflows n w ∧ parenthesisFault? n w = some .unopened) ∨
    (¬ Underflows n w ∧ 0 < n + parenthesisDepth w ∧ parenthesisFault? n w = some .unclosed) ∨
    (¬ Underflows n w ∧ ¬ 0 < n + parenthesisDepth w ∧ parenthesisFault? n w = none) := by
  induction w generalizing n with
  | nil =>
    have hu := not_underflows_nil (Int.natCast_nonneg n)
    have hd : parenthesisDepth [] = 0 := rfl
    by_cases hn : n = 0
    · exact .inr (.inr ⟨hu, by omega, by rw [parenthesisFault?, if_pos hn]⟩)
    · exact .inr (.inl ⟨hu, by omega, by rw [parenthesisFault?, if_neg hn]⟩)
  | cons c w ih =>
    rw [underflows_cons (Int.natCast_nonneg n), parenthesisDepth_cons c w, ← Int.add_assoc]
    by_cases ho : c = '('
    · subst ho
      have hd : (n : Int) + parenthesisDepth ['('] = (n + 1 : Nat) := rfl
      rw [parenthesisFault?_open, hd]
      exact ih (n + 1)
    by_cases hc : c = ')'
    · subst hc
      have hd : parenthesisDepth [')'] = -1 := rfl
      cases n with
      | zero =>
        exact .inl ⟨⟨[], List.nil_prefix, by decide⟩, rfl⟩
      | succ n =>
        have hn : ((n + 1 : Nat) : Int) + parenthesisDepth [')'] = n := by omega
        rw [hn]
        exact ih n
    · rw [parenthesisFault?_cons ho hc, parenthesisDepth_singleton ho hc, Int.add_zero]
      exact ih n

/-- The tokens close two groups too many somewhere, or one too many on the whole. A formula counts
as standing in parentheses of its own, so one group may be closed too early. -/
def Overclosed (w : List Char) : Prop :=
  (∃ p, p <+: w ∧ parenthesisDepth p ≤ -2) ∨ parenthesisDepth w < 0

theorem underflows_closed_iff {w : List Char} : Underflows 1 (w ++ [')']) ↔ Overclosed w := by
  have hd : parenthesisDepth (w ++ [')']) = parenthesisDepth w - 1 :=
    parenthesisDepth_append w [')']
  constructor
  · rintro ⟨p, hp, h⟩
    rcases List.prefix_concat_iff.mp hp with rfl | hp
    · exact .inr (by omega)
    · exact .inl ⟨p, hp, by omega⟩
  · rintro (⟨p, hp, h⟩ | h)
    · exact ⟨p, List.prefix_concat_iff.mpr (.inr hp), by omega⟩
    · exact ⟨w ++ [')'], List.prefix_refl _, by omega⟩

namespace Signature

variable {σ : Signature}

/-- What tokens are read as, told from their parentheses alone as far as these tell it. -/
theorem readTokens_cases (σ : Signature) (w : List Char) :
    (Overclosed w ∧ σ.readTokens w = .error .unopened) ∨
    (¬ Overclosed w ∧ 0 < parenthesisDepth w ∧ σ.readTokens w = .error .unclosed) ∨
    (¬ Overclosed w ∧ ¬ 0 < parenthesisDepth w ∧
      ((∃ t, σ.readTokens w = .ok t) ∨ σ.readTokens w = .error .noTerm)) := by
  have hopen : parenthesisFault? 0 ('(' :: w ++ [')']) = parenthesisFault? 1 (w ++ [')']) := rfl
  have hdepth : ((1 : Nat) : Int) + parenthesisDepth (w ++ [')']) = parenthesisDepth w := by
    have hd : parenthesisDepth (w ++ [')']) = parenthesisDepth w - 1 :=
      parenthesisDepth_append w [')']
    omega
  have hcases := parenthesisFault?_cases 1 (w ++ [')'])
  rw [hdepth, Int.natCast_one, underflows_closed_iff, ← hopen] at hcases
  rw [readTokens]
  rcases hcases with ⟨hw, hf⟩ | ⟨hw, hpos, hf⟩ | ⟨hw, hpos, hf⟩
  · exact .inl ⟨hw, by rw [hf]⟩
  · exact .inr (.inl ⟨hw, hpos, by rw [hf]⟩)
  · refine .inr (.inr ⟨hw, hpos, ?_⟩)
    rw [hf]
    cases (Piece.nest w).bind σ.termOf with
    | none => exact .inr rfl
    | some t => exact .inl ⟨t, rfl⟩

/-- A formula is taken apart from the left in one way. It is refused for its stray characters if it
has any. Otherwise it is refused for a group that is not open if its tokens are overclosed, and for
a group that is left open if they are not and open more groups than they close. In all other cases
it is read, or refused as no term. -/
theorem read_faults (σ : Signature) (formula : String) :
    ∃ tokens stray, σ.Scans (Text.squeeze formula.toList) tokens stray ∧
      (∀ tokens' stray', σ.Scans (Text.squeeze formula.toList) tokens' stray' →
        tokens' = tokens ∧ stray' = stray) ∧
      (∀ cs, σ.read formula = .error (.unexpected cs) ↔ stray ≠ [] ∧ cs = stray) ∧
      (σ.read formula = .error .unopened ↔ stray = [] ∧ Overclosed tokens) ∧
      (σ.read formula = .error .unclosed ↔
        stray = [] ∧ ¬ Overclosed tokens ∧ 0 < parenthesisDepth tokens) ∧
      ((∃ t, σ.read formula = .ok t) ∨ σ.read formula = .error .noTerm ↔
        stray = [] ∧ ¬ Overclosed tokens ∧ ¬ 0 < parenthesisDepth tokens) := by
  have hscan := σ.scans_scan (Text.squeeze formula.toList)
  refine ⟨_, _, hscan, fun _ _ h => ?_, ?_⟩
  · obtain ⟨htokens, hstray⟩ := filterMap_scan_of_scans h
    exact ⟨htokens.symm, hstray.symm⟩
  generalize (σ.scan 0 (Text.squeeze formula.toList)).filterMap Lexeme.token? = tokens at hscan ⊢
  generalize (σ.scan 0 (Text.squeeze formula.toList)).filterMap Lexeme.stray? = stray at hscan ⊢
  by_cases hs : stray = []
  · subst hs
    rw [read_eq_readTokens (tokens_of_scans hscan)]
    rcases σ.readTokens_cases tokens with ⟨hw, hr⟩ | ⟨hw, hd, hr⟩ | ⟨hw, hd, ⟨t, hr⟩ | hr⟩
    · simp [hr, hw]
    · simp [hr, hw, hd]
    · simp [hr, hw, hd]
    · simp [hr, hw, hd]
  · have hread : σ.read formula = .error (.unexpected stray) :=
      bind_eq_error_iff.mpr (.inl (tokens_of_scans_stray hscan hs))
    simp [hread, hs, eq_comm]

end Signature

end Equational
