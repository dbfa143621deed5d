import Equational.Proofs.Formula.Unambiguous
import Equational.Formula.Writing

namespace Equational

namespace Operand

/-- The atom or the group without the operators around it. -/
def core : Operand → Operand
  | atom c => atom c
  | before _ d => d.core
  | behind d _ => d.core
  | group f => group f

/-- The operators before the core from left to right. -/
def befores : Operand → List Char
  | before op d => op :: d.befores
  | behind d _ => d.befores
  | _ => []

/-- The operators behind the core from left to right. -/
def behinds : Operand → List Char
  | before _ d => d.behinds
  | behind d op => d.behinds ++ [op]
  | _ => []

end Operand

variable {σ : Signature}

theorem Operand.pieces_eq_layers (d : Operand) :
    d.pieces = d.befores.map .token ++ d.core.pieces ++ d.behinds.map .token := by
  cases d with
  | atom c => rfl
  | before op d => rw [pieces, pieces_eq_layers d]; rfl
  | behind d op =>
    rw [pieces, pieces_eq_layers d]
    simp [befores, core, behinds]
  | group f => simp [befores, core, behinds]

theorem Operand.fixity?_of_mem_befores {d : Operand} (h : d.Valid σ) :
    ∀ c ∈ d.befores, σ.fixity? c = some .before := by
  intro c hc
  cases d with
  | atom a => cases hc
  | before op d =>
    rcases List.mem_cons.mp hc with rfl | hc
    · exact h.1
    · exact fixity?_of_mem_befores h.2 c hc
  | behind d op => exact fixity?_of_mem_befores h.1 c hc
  | group f => cases hc

/-- The core is one piece, and no unary operator. -/
theorem Operand.core_cases {d : Operand} (h : d.Valid σ) :
    (∃ c, d.core = .atom c ∧ (Operand.atom c).Valid σ) ∨
      ∃ f, d.core = .group f ∧ Formula.Valid σ f := by
  cases d with
  | atom c => exact .inl ⟨c, rfl, h⟩
  | before op d => exact core_cases (d := d) h.2
  | behind d op => exact core_cases (d := d) h.1
  | group f => exact .inr ⟨f, rfl, h⟩

theorem Operand.exists_core_piece {d : Operand} (h : d.Valid σ) :
    ∃ p, d.core.pieces = [p] ∧ ¬ p.HasFixity σ [.before, .behind] := by
  rcases core_cases h with ⟨c, hc, hv⟩ | ⟨f, hc, -⟩
  · refine ⟨.token c, by rw [hc]; rfl, ?_⟩
    exact not_hasFixity_atom hv (by simp)
  · exact ⟨.group f.pieces, by rw [hc]; rfl, Piece.not_hasFixity_group⟩

/-- The pieces determine the operators on either side and the piece between them. -/
theorem Operand.layers_eq_of_pieces_eq {d e : Operand} (hd : d.Valid σ) (he : e.Valid σ)
    (h : d.pieces = e.pieces) :
    d.befores = e.befores ∧ d.core.pieces = e.core.pieces ∧ d.behinds = e.behinds := by
  obtain ⟨p, hp, hpn⟩ := exists_core_piece hd
  obtain ⟨q, hq, hqn⟩ := exists_core_piece he
  have token_inj : ∀ a b, Piece.token a = .token b → a = b := fun _ _ => Piece.token.inj
  have unary : ∀ cs : List Char, (∀ c ∈ cs, σ.fixity? c = some .before) →
      ∀ r ∈ cs.map Piece.token, ¬ ¬ r.HasFixity σ [.before, .behind] := by
    intro cs hcs r hr
    obtain ⟨c, hc, rfl⟩ := List.mem_map.mp hr
    rw [Classical.not_not, Piece.hasFixity_token_iff (hcs c hc)]
    simp
  rw [pieces_eq_layers d, pieces_eq_layers e, hp, hq] at h
  rw [List.append_assoc, List.append_assoc] at h
  have hs := eq_of_append_cons_eq (P := fun r => ¬ r.HasFixity σ [.before, .behind])
    (unary _ (fixity?_of_mem_befores hd)) hpn (unary _ (fixity?_of_mem_befores he)) hqn h
  refine ⟨(List.map_inj_right token_inj).mp hs.1, by rw [hp, hq, hs.2.1], ?_⟩
  exact (List.map_inj_right token_inj).mp hs.2.2

namespace Signature

/-- How something written looks with operators on either side of it. -/
def surround (σ : Signature) (befores behinds : List Char) (w : Written) : Written :=
  if befores.isEmpty && behinds.isEmpty then w
  else
    (String.join (befores.map (σ.writeHead .text)) ++ w.asOperand ++
      String.join (behinds.map (σ.writeHead .text)), .unary)

theorem asOperand_surround (befores behinds : List Char) (w : Written) :
    (σ.surround befores behinds w).asOperand =
      String.join (befores.map (σ.writeHead .text)) ++ w.asOperand ++
        String.join (behinds.map (σ.writeHead .text)) := by
  rw [surround]
  split
  · next h =>
    simp only [Bool.and_eq_true, List.isEmpty_iff] at h
    simp [h.1, h.2]
  · rfl

end Signature

theorem Operand.write_term {d : Operand} (h : d.Valid σ) :
    σ.write .text d.term = σ.surround d.befores d.behinds (σ.write .text d.core.term) := by
  cases d with
  | atom c => rfl
  | before op d =>
    rw [term, Signature.write, write_term h.2, Signature.writeUnary, h.1,
      Signature.asOperand_surround]
    simp [befores, behinds, core, Signature.surround, String.append_assoc]
  | behind d op =>
    rw [term, Signature.write, write_term h.1, Signature.writeUnary, h.2,
      Signature.asOperand_surround]
    simp [befores, behinds, core, Signature.surround, String.append_assoc]
  | group f => rfl

/-- Operands with the same pieces are printed alike, if the groups in them are. -/
theorem Operand.write_eq_of_pieces_eq {d e : Operand} (hd : d.Valid σ) (he : e.Valid σ)
    (ih : ∀ f g : Formula, f.Valid σ → g.Valid σ → .group f.pieces ∈ d.pieces →
      f.pieces = g.pieces → σ.write .text f.term = σ.write .text g.term)
    (h : d.pieces = e.pieces) : σ.write .text d.term = σ.write .text e.term := by
  obtain ⟨hb, hc, hk⟩ := layers_eq_of_pieces_eq hd he h
  have hcore : σ.write .text d.core.term = σ.write .text e.core.term := by
    rcases core_cases hd with ⟨a, ha, -⟩ | ⟨f, hf, hfv⟩
    · rcases core_cases he with ⟨b, hb, -⟩ | ⟨g, hg, -⟩
      · rw [ha, hb] at hc
        obtain rfl : a = b := by simpa [pieces] using hc
        rw [ha, hb]
      · simp [ha, hg, pieces] at hc
    · rcases core_cases he with ⟨b, hb, -⟩ | ⟨g, hg, hgv⟩
      · simp [hf, hb, pieces] at hc
      · have hm : .group f.pieces ∈ d.pieces := by
          rw [pieces_eq_layers d, hf]
          simp [pieces]
        rw [hf, hg] at hc ⊢
        exact ih f g hfv hgv hm (by simpa [pieces] using hc)
  rw [write_term hd, write_term he, hb, hk, hcore]

/-- Derivations of the same tokens are printed alike. -/
theorem Formula.write_eq_of_pieces_eq {f g : Formula} (hf : f.Valid σ) (hg : g.Valid σ)
    (h : f.pieces = g.pieces) : σ.write .text f.term = σ.write .text g.term := by
  have ih : ∀ f' g' : Formula, f'.Valid σ → g'.Valid σ → .group f'.pieces ∈ f.pieces →
      f'.pieces = g'.pieces → σ.write .text f'.term = σ.write .text g'.term :=
    fun f' g' hf' hg' hm he => write_eq_of_pieces_eq hf' hg' he
  cases f with
  | single d =>
    cases g with
    | single e => exact Operand.write_eq_of_pieces_eq (d := d) hf hg ih h
    | pair l op r => exact absurd h (single_pieces_ne_pair hf hg)
  | pair l op r =>
    cases g with
    | single e => exact absurd h.symm (single_pieces_ne_pair hg hf)
    | pair l' op' r' =>
      obtain ⟨hl, rfl, hr⟩ := pair_pieces_inj hf hg h
      have hlw := Operand.write_eq_of_pieces_eq hf.1 hg.1
        (fun f g hf hg hm => ih f g hf hg (List.mem_append_left _ hm)) hl
      have hrw := Operand.write_eq_of_pieces_eq hf.2.2 hg.2.2
        (fun f g hf hg hm => ih f g hf hg (List.mem_append_right _ (List.mem_cons_of_mem _ hm))) hr
      rw [Formula.term, Formula.term, Signature.write, Signature.write, hlw, hrw]
termination_by sizeOf f.pieces
decreasing_by
  have hs := List.sizeOf_lt_of_mem hm
  simp only [Piece.group.sizeOf_spec] at hs
  omega

end Equational
