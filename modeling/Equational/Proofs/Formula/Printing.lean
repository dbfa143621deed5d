import Equational.Proofs.Formula.Spelling

namespace Equational

theorem Text.squeeze_append (as bs : List Char) : squeeze (as ++ bs) = squeeze as ++ squeeze bs :=
  List.filter_append as bs

namespace Signature

variable {σ : Signature}

/-- A well-formed term is built from atoms by operators that take one or two operands. -/
inductive Builds (σ : Signature) : Term → Prop where
  | atom (c : Char) (hc : (Operand.atom c).Valid σ) : Builds σ (.leaf c)
  | before {c : Char} {t : Term} (hc : σ.fixity? c = some .before) (ht : Builds σ t) :
    Builds σ (.node c [t])
  | behind {c : Char} {t : Term} (hc : σ.fixity? c = some .behind) (ht : Builds σ t) :
    Builds σ (.node c [t])
  | between {c : Char} {t u : Term} (hc : σ.fixity? c = some .between) (ht : Builds σ t)
    (hu : Builds σ u) : Builds σ (.node c [t, u])

theorem builds_of_wellFormed {t : Term} (h : σ.wellFormed t = true) : σ.Builds t := by
  induction t with
  | node c ts ih =>
    rw [wellFormed, Bool.and_eq_true, wellFormedList_eq, List.all_eq_true] at h
    obtain ⟨hc, hts⟩ := h
    have hb : ∀ t ∈ ts, σ.Builds t := fun t ht => ih t ht (hts t ht)
    cases hf : σ.fixity? c with
    | none =>
      rw [hf, Bool.and_eq_true, List.isEmpty_iff] at hc
      obtain ⟨rfl, hl⟩ := hc
      exact .atom c (.inl hl)
    | some f =>
      rw [hf, beq_iff_eq] at hc
      cases f with
      | constant =>
        obtain rfl := List.length_eq_zero_iff.mp hc.symm
        exact .atom c (.inr hf)
      | before =>
        obtain ⟨t, rfl⟩ := List.length_eq_one_iff.mp hc.symm
        exact .before hf (hb t (by simp))
      | behind =>
        obtain ⟨t, rfl⟩ := List.length_eq_one_iff.mp hc.symm
        exact .behind hf (hb t (by simp))
      | between =>
        obtain ⟨t, us, rfl⟩ := List.exists_cons_of_length_eq_add_one hc.symm
        obtain ⟨u, rfl⟩ := List.length_eq_one_iff.mp (Nat.succ.inj hc.symm)
        exact .between hf (hb t (by simp)) (hb u (by simp))

end Signature

/-- A formula in the place of an operand. -/
def Formula.asOperand : Formula → Operand
  | .single d => d
  | .pair l op r => .group (.pair l op r)

theorem Formula.asOperand_valid {σ : Signature} {f : Formula} (h : f.Valid σ) :
    f.asOperand.Valid σ := by
  cases f with
  | single d => exact h
  | pair l op r => exact h

theorem Formula.asOperand_term (f : Formula) : f.asOperand.term = f.term := by
  cases f <;> rfl

namespace Signature

variable {σ : Signature}

/-- The derivation that a term is written as. From three arguments on there is none. -/
def derivation (σ : Signature) : Term → Formula
  | .node c [] => .single (.atom c)
  | .node c [t] =>
    .single
      (if σ.fixity? c = some .behind then .behind (derivation σ t).asOperand c
      else .before c (derivation σ t).asOperand)
  | .node c [t, u] => .pair (derivation σ t).asOperand c (derivation σ u).asOperand
  | .node c (_ :: _ :: _ :: _) => .single (.atom c)

theorem derivation_leaf (c : Char) : σ.derivation (.leaf c) = .single (.atom c) := by
  rw [Term.leaf, derivation]

theorem derivation_before {c : Char} (h : σ.fixity? c = some .before) (t : Term) :
    σ.derivation (.node c [t]) = .single (.before c (σ.derivation t).asOperand) := by
  rw [derivation, h, if_neg (by simp)]

theorem derivation_behind {c : Char} (h : σ.fixity? c = some .behind) (t : Term) :
    σ.derivation (.node c [t]) = .single (.behind (σ.derivation t).asOperand c) := by
  rw [derivation, if_pos h]

theorem derivation_valid {t : Term} (h : σ.Builds t) : (σ.derivation t).Valid σ := by
  induction h with
  | atom c hc => rwa [derivation_leaf]
  | before hc _ ih =>
    rw [derivation_before hc]
    exact ⟨hc, Formula.asOperand_valid ih⟩
  | behind hc _ ih =>
    rw [derivation_behind hc]
    exact ⟨Formula.asOperand_valid ih, hc⟩
  | between hc _ _ iht ihu =>
    rw [derivation]
    exact ⟨Formula.asOperand_valid iht, hc, Formula.asOperand_valid ihu⟩

theorem derivation_term {t : Term} (h : σ.Builds t) : (σ.derivation t).term = t := by
  induction h with
  | atom c hc =>
    rw [derivation_leaf]
    rfl
  | before hc _ ih =>
    rw [derivation_before hc, Formula.term, Operand.term, Formula.asOperand_term, ih]
  | behind hc _ ih =>
    rw [derivation_behind hc, Formula.term, Operand.term, Formula.asOperand_term, ih]
  | between hc _ _ iht ihu =>
    rw [derivation, Formula.term, Formula.asOperand_term, Formula.asOperand_term, iht, ihu]

variable {style : Style}

/-- No symbol has white space in its form for the style. -/
def Unblanked (σ : Signature) (style : Style) : Prop :=
  ∀ s ∈ σ.symbols, ∀ c ∈ (s.form style).toList, Text.isBlank c = false

theorem unblanked_text (σ : Signature) : σ.Unblanked .text := fun _ h => not_isBlank_of_mem_text h

theorem squeeze_spell (hs : σ.Unblanked style) {c : Char} (h : σ.IsToken c) :
    Text.squeeze (σ.spell style c) = σ.spell style c := by
  apply List.filter_eq_self.mpr
  intro d hd
  rw [Bool.not_eq_true']
  rcases h with h | ⟨s, hm, rfl⟩
  · rw [spell_of_isLiteral h, List.mem_singleton] at hd
    subst hd
    exact not_isBlank_of_isLiteral h
  · rw [spell_of_mem hm] at hd
    exact hs s hm d hd

theorem isToken_of_fixity? {c : Char} {f : Fixity} (h : σ.fixity? c = some f) : σ.IsToken c := by
  obtain ⟨s, hs, rfl, -⟩ := exists_mem_of_fixity? h
  exact .inr ⟨s, hs, rfl⟩

theorem isToken_of_atom {c : Char} (h : (Operand.atom c).Valid σ) : σ.IsToken c := by
  rcases h with h | h
  · exact .inl (by rw [isLiteral, h]; rfl)
  · exact isToken_of_fixity? h

theorem squeeze_writeUnary (c : Char) (operand : String) :
    Text.squeeze (σ.writeUnary style c operand).toList =
      if σ.fixity? c = some .behind then
        Text.squeeze operand.toList ++ Text.squeeze (σ.spell style c)
      else Text.squeeze (σ.spell style c) ++ Text.squeeze operand.toList := by
  rw [writeUnary, spell]
  split
  · rw [String.toList_append, Text.squeeze_append]
  · split
    · have hb : Text.squeeze (" " : String).toList = [] := by decide
      rw [String.toList_append, String.toList_append, Text.squeeze_append, Text.squeeze_append,
        hb, List.append_nil]
    · rw [String.toList_append, Text.squeeze_append]

/-- What is written is put in parentheses exactly if the derivation is a pair. -/
theorem asOperand_write (style : Style) (t : Term) :
    (∃ d, σ.derivation t = .single d ∧ (σ.write style t).asOperand = (σ.write style t).1) ∨
      ∃ l op r, σ.derivation t = .pair l op r ∧
        (σ.write style t).asOperand = "(" ++ (σ.write style t).1 ++ ")" := by
  match t with
  | .node c [] => exact .inl ⟨_, rfl, rfl⟩
  | .node c [t] => exact .inl ⟨_, rfl, rfl⟩
  | .node c [t, u] => exact .inr ⟨_, _, _, rfl, rfl⟩
  | .node c (_ :: _ :: _ :: _) => exact .inl ⟨_, rfl, rfl⟩

theorem squeeze_asOperand {t : Term} (h : Text.squeeze (σ.write style t).1.toList =
      (σ.derivation t).tokens.flatMap (σ.spell style)) :
    Text.squeeze (σ.write style t).asOperand.toList =
      (σ.derivation t).asOperand.tokens.flatMap (σ.spell style) := by
  rcases σ.asOperand_write style t with ⟨d, hd, hw⟩ | ⟨l, op, r, hd, hw⟩
  · rw [hw, h, hd]
    rfl
  · have ho : Text.squeeze ("(" : String).toList = σ.spell style '(' := by
      rw [spell_of_isLiteral (by decide)]
      decide
    have hc : Text.squeeze (")" : String).toList = σ.spell style ')' := by
      rw [spell_of_isLiteral (by decide)]
      decide
    rw [hw, String.toList_append, String.toList_append, Text.squeeze_append, Text.squeeze_append,
      h, hd, ho, hc]
    simp [Formula.asOperand, Operand.tokens, Formula.tokens]

/-- Without white space a written term is its derivation, spelled out. -/
theorem squeeze_write (hs : σ.Unblanked style) {t : Term} (h : σ.Builds t) :
    Text.squeeze (σ.write style t).1.toList =
      (σ.derivation t).tokens.flatMap (σ.spell style) := by
  induction h with
  | atom c hc =>
    rw [derivation_leaf, Term.leaf, write]
    simpa [Formula.tokens, Operand.tokens, spell] using squeeze_spell hs (isToken_of_atom hc)
  | before hc _ ih =>
    rw [derivation_before hc, write, squeeze_writeUnary, hc, if_neg (by simp),
      squeeze_asOperand ih, squeeze_spell hs (isToken_of_fixity? hc)]
    rfl
  | behind hc _ ih =>
    rw [derivation_behind hc, write, squeeze_writeUnary, if_pos hc, squeeze_asOperand ih,
      squeeze_spell hs (isToken_of_fixity? hc)]
    simp [Formula.tokens, Operand.tokens]
  | @between c t u hc _ _ iht ihu =>
    have hb : Text.squeeze (" " : String).toList = [] := by decide
    have hsp := squeeze_spell hs (isToken_of_fixity? hc)
    rw [spell] at hsp
    rw [derivation, write]
    simp only [String.toList_append, Text.squeeze_append, squeeze_asOperand iht,
      squeeze_asOperand ihu, hb, hsp, Formula.tokens, List.flatMap_append,
      List.flatMap_cons, List.append_assoc]
    rfl

mutual

theorem isToken_of_mem_operand {d : Operand} (h : d.Valid σ) : ∀ c ∈ d.tokens, σ.IsToken c := by
  intro c hc
  match d with
  | .atom a =>
    obtain rfl := List.mem_singleton.mp hc
    exact isToken_of_atom h
  | .before op d =>
    rcases List.mem_cons.mp hc with rfl | hc
    · exact isToken_of_fixity? h.1
    · exact isToken_of_mem_operand h.2 c hc
  | .behind d op =>
    rcases List.mem_append.mp hc with hc | hc
    · exact isToken_of_mem_operand h.1 c hc
    · obtain rfl := List.mem_singleton.mp hc
      exact isToken_of_fixity? h.2
  | .group f =>
    rcases List.mem_append.mp hc with hc | hc
    · rcases List.mem_cons.mp hc with rfl | hc
      · exact .inl (by decide)
      · exact isToken_of_mem (f := f) h c hc
    · obtain rfl := List.mem_singleton.mp hc
      exact .inl (by decide)

theorem isToken_of_mem {f : Formula} (h : f.Valid σ) : ∀ c ∈ f.tokens, σ.IsToken c := by
  intro c hc
  match f with
  | .single d => exact isToken_of_mem_operand (d := d) h c hc
  | .pair l op r =>
    rcases List.mem_append.mp hc with hc | hc
    · exact isToken_of_mem_operand h.1 c hc
    · rcases List.mem_cons.mp hc with rfl | hc
      · exact isToken_of_fixity? h.2.1
      · exact isToken_of_mem_operand h.2.2 c hc

end

/-- The tokens of a printed term are those of its derivation. -/
theorem tokens_render (hσ : σ.PrefixFree) {t : Term} (h : σ.Builds t) :
    σ.tokens (σ.render .text t) = .ok (σ.derivation t).tokens :=
  tokens_of_squeeze hσ (isToken_of_mem (derivation_valid h)) (squeeze_write σ.unblanked_text h)

end Signature

end Equational
