import Equational.Formula.Reading

/-! The grammar of formulas over the ids of a signature. Its derivation trees are data: `tokens` is
the word that a tree derives, `term` the term that it builds, and `Valid` says that every token has
the part in the signature that the tree gives to it. -/

namespace Equational

mutual

/-- How tokens are an operand: a letter or a constant, an operand with a unary operator before or
behind it, or a formula in parentheses. -/
inductive Operand where
  | atom (c : Char)
  | before (op : Char) (d : Operand)
  | behind (d : Operand) (op : Char)
  | group (f : Formula)

/-- How tokens are a formula: one operand, or two with a binary operator between them. -/
inductive Formula where
  | single (d : Operand)
  | pair (left : Operand) (op : Char) (right : Operand)

end

mutual

def Operand.tokens : Operand → List Char
  | .atom c => [c]
  | .before op d => op :: d.tokens
  | .behind d op => d.tokens ++ [op]
  | .group f => '(' :: f.tokens ++ [')']

def Formula.tokens : Formula → List Char
  | .single d => d.tokens
  | .pair l op r => l.tokens ++ op :: r.tokens

end

mutual

def Operand.term : Operand → Term
  | .atom c => .leaf c
  | .before op d => .node op [d.term]
  | .behind d op => .node op [d.term]
  | .group f => f.term

def Formula.term : Formula → Term
  | .single d => d.term
  | .pair l op r => .node op [l.term, r.term]

end

mutual

def Operand.Valid (σ : Signature) : Operand → Prop
  | .atom c => Term.isLetter c = true ∨ σ.fixity? c = some .constant
  | .before op d => σ.fixity? op = some .before ∧ d.Valid σ
  | .behind d op => d.Valid σ ∧ σ.fixity? op = some .behind
  | .group f => f.Valid σ

def Formula.Valid (σ : Signature) : Formula → Prop
  | .single d => d.Valid σ
  | .pair l op r => l.Valid σ ∧ σ.fixity? op = some .between ∧ r.Valid σ

end

mutual

/-- The tokens as pieces: a group in parentheses is one piece. -/
def Operand.pieces : Operand → List Piece
  | .atom c => [.token c]
  | .before op d => .token op :: d.pieces
  | .behind d op => d.pieces ++ [.token op]
  | .group f => [.group f.pieces]

def Formula.pieces : Formula → List Piece
  | .single d => d.pieces
  | .pair l op r => l.pieces ++ .token op :: r.pieces

end

namespace Signature

/-- Both kinds of unary operators occur. -/
def MixesUnary (σ : Signature) : Prop :=
  (∃ s ∈ σ.symbols, s.fixity = .before) ∧ ∃ s ∈ σ.symbols, s.fixity = .behind

variable {σ : Signature} {c : Char} {f : Fixity}

theorem exists_mem_of_fixity? (h : σ.fixity? c = some f) :
    ∃ s ∈ σ.symbols, s.id = c ∧ s.fixity = f := by
  obtain ⟨s, hs, hf⟩ := Option.map_eq_some_iff.mp h
  exact ⟨s, List.mem_of_find?_eq_some hs, by simpa using List.find?_some hs, hf⟩

theorem fixity?_of_mem {s : Symbol} (h : s ∈ σ.symbols) : σ.fixity? s.id = some s.fixity := by
  rw [fixity?, byId?_of_mem h, Option.map_some]

/-- The id of a symbol is no letter and no parenthesis. -/
theorem isReserved_of_fixity? (h : σ.fixity? c = some f) : isReserved c = false := by
  obtain ⟨s, hs, rfl, -⟩ := exists_mem_of_fixity? h
  exact σ.lawful.id_free s hs

theorem fixity?_of_isReserved (h : isReserved c = true) : σ.fixity? c = none := by
  cases hf : σ.fixity? c with
  | none => rfl
  | some f => rw [isReserved_of_fixity? hf] at h; cases h

theorem fixity?_of_isLetter (h : Term.isLetter c = true) : σ.fixity? c = none :=
  fixity?_of_isReserved (by simp [isReserved, h])

theorem isProper_token_of_fixity? (h : σ.fixity? c = some f) : (Piece.token c).isProper = true := by
  have hr := isReserved_of_fixity? h
  simp only [isReserved, Bool.or_eq_false_iff] at hr
  simp [Piece.isProper, bne, hr.1.1.2, hr.1.2]

theorem isProper_token_of_isLetter (h : Term.isLetter c = true) :
    (Piece.token c).isProper = true := by
  simp only [Piece.isProper, Bool.and_eq_true, bne_iff_ne]
  constructor
  · rintro rfl
    revert h
    decide
  · rintro rfl
    revert h
    decide

theorem mixesUnary_of_fixity? {op op' : Char} (h : σ.fixity? op = some .before)
    (h' : σ.fixity? op' = some .behind) : σ.MixesUnary := by
  obtain ⟨s, hs, -, hf⟩ := exists_mem_of_fixity? h
  obtain ⟨s', hs', -, hf'⟩ := exists_mem_of_fixity? h'
  exact ⟨⟨s, hs, hf⟩, s', hs', hf'⟩

end Signature

variable {σ : Signature}

mutual

theorem Operand.tokensList_pieces (d : Operand) : Piece.tokensList d.pieces = d.tokens := by
  match d with
  | .atom c => rfl
  | .before op d =>
    simp [Operand.pieces, Operand.tokens, Piece.tokensList, Piece.tokens, d.tokensList_pieces]
  | .behind d op =>
    simp [Operand.pieces, Operand.tokens, Piece.tokensList_append, Piece.tokensList, Piece.tokens,
      d.tokensList_pieces]
  | .group f =>
    simp [Operand.pieces, Operand.tokens, Piece.tokensList, Piece.tokens, f.tokensList_pieces]

theorem Formula.tokensList_pieces (f : Formula) : Piece.tokensList f.pieces = f.tokens := by
  match f with
  | .single d => exact d.tokensList_pieces
  | .pair l op r =>
    simp [Formula.pieces, Formula.tokens, Piece.tokensList_append, Piece.tokensList, Piece.tokens,
      l.tokensList_pieces, r.tokensList_pieces]

end

theorem Piece.isProperList_append (ps qs : List Piece) :
    isProperList (ps ++ qs) = (isProperList ps && isProperList qs) := by
  induction ps with
  | nil => rfl
  | cons p ps ih => simp [isProperList, ih, Bool.and_assoc]

mutual

theorem Operand.isProper_pieces {d : Operand} (h : d.Valid σ) :
    Piece.isProperList d.pieces = true := by
  match d with
  | .atom c =>
    have hc : (Piece.token c).isProper = true := by
      rcases h with h | h
      · exact Signature.isProper_token_of_isLetter h
      · exact Signature.isProper_token_of_fixity? h
    simp [Operand.pieces, Piece.isProperList, hc]
  | .before op d =>
    obtain ⟨ho, hd⟩ := h
    simp [Operand.pieces, Piece.isProperList, Signature.isProper_token_of_fixity? ho,
      Operand.isProper_pieces hd]
  | .behind d op =>
    obtain ⟨hd, ho⟩ := h
    simp [Operand.pieces, Piece.isProperList_append, Piece.isProperList,
      Signature.isProper_token_of_fixity? ho, Operand.isProper_pieces hd]
  | .group f =>
    have hf : Piece.isProperList f.pieces = true := Formula.isProper_pieces h
    simp [Operand.pieces, Piece.isProperList, Piece.isProper, hf]

theorem Formula.isProper_pieces {f : Formula} (h : f.Valid σ) :
    Piece.isProperList f.pieces = true := by
  match f with
  | .single d => exact Operand.isProper_pieces (d := d) h
  | .pair l op r =>
    obtain ⟨hl, ho, hr⟩ := h
    simp [Formula.pieces, Piece.isProperList_append, Piece.isProperList, Operand.isProper_pieces hl,
      Operand.isProper_pieces hr, Signature.isProper_token_of_fixity? ho]

end

mutual

theorem Operand.wellFormed_term {d : Operand} (h : d.Valid σ) : σ.wellFormed d.term = true := by
  match d with
  | .atom c =>
    rcases h with hc | hc
    · simp [Operand.term, Term.leaf, Signature.wellFormed, Signature.wellFormedList,
        Signature.fixity?_of_isLetter hc, hc]
    · simp [Operand.term, Term.leaf, Signature.wellFormed, Signature.wellFormedList, hc,
        Fixity.operands]
  | .before op d =>
    simp [Operand.term, Signature.wellFormed, Signature.wellFormedList, h.1, Fixity.operands,
      Operand.wellFormed_term h.2]
  | .behind d op =>
    simp [Operand.term, Signature.wellFormed, Signature.wellFormedList, h.2, Fixity.operands,
      Operand.wellFormed_term h.1]
  | .group f => exact Formula.wellFormed_term (f := f) h

/-- Each token of a derivation has the part in it that the signature gives to it. -/
theorem Formula.wellFormed_term {f : Formula} (h : f.Valid σ) : σ.wellFormed f.term = true := by
  match f with
  | .single d => exact Operand.wellFormed_term (d := d) h
  | .pair l op r =>
    simp [Formula.term, Signature.wellFormed, Signature.wellFormedList, h.2.1, Fixity.operands,
      Operand.wellFormed_term h.1, Operand.wellFormed_term h.2.2]

end

/-- The pieces of a derived word are found from its tokens alone. -/
theorem Formula.nest_tokens {f : Formula} (h : f.Valid σ) :
    Piece.nest f.tokens = some f.pieces :=
  Piece.nest_eq_some_iff.mpr ⟨f.tokensList_pieces, isProper_pieces h⟩

theorem Formula.pieces_eq_of_tokens_eq {f g : Formula} (hf : f.Valid σ) (hg : g.Valid σ)
    (h : f.tokens = g.tokens) : f.pieces = g.pieces := by
  have hn := nest_tokens hf
  rw [h, nest_tokens hg] at hn
  exact (Option.some.inj hn).symm

end Equational
