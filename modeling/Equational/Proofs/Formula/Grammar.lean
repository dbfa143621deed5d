import Equational.Proofs.Except
import Equational.Proofs.Formula.Items
import Equational.Proofs.Formula.Unambiguous

namespace Equational

variable {σ : Signature}

/-- Derivations of the operators around an operand. The operators behind it are listed from the
outermost inward, as they are applied. -/
theorem Operand.exists_behind {d : Operand} (hd : d.Valid σ) {js : List Char}
    (hjs : ∀ c ∈ js, σ.fixity? c = some .behind) :
    ∃ e : Operand, e.Valid σ ∧ e.pieces = d.pieces ++ js.reverse.map .token ∧
      e.term = Signature.applyAll js d.term := by
  induction js with
  | nil => exact ⟨d, hd, by simp, rfl⟩
  | cons j js ih =>
    obtain ⟨e, he, hp, ht⟩ := ih fun c hc => hjs c (by simp [hc])
    refine ⟨.behind e j, ⟨he, hjs j (by simp)⟩, ?_, ?_⟩
    · simp [Operand.pieces, hp]
    · rw [Operand.term, ht]
      rfl

theorem Operand.exists_unary {d : Operand} (hd : d.Valid σ) {bs js : List Char}
    (hbs : ∀ c ∈ bs, σ.fixity? c = some .before) (hjs : ∀ c ∈ js, σ.fixity? c = some .behind) :
    ∃ e : Operand, e.Valid σ ∧ e.pieces = bs.map .token ++ d.pieces ++ js.reverse.map .token ∧
      e.term = σ.applyUnary js d.term bs := by
  induction bs generalizing js with
  | nil => exact exists_behind hd hjs
  | cons b bs ih =>
    -- the operators behind that come before `b` in the signature are applied after it
    let outer := js.takeWhile (σ.precedes · b)
    let inner := js.dropWhile (σ.precedes · b)
    have hsplit : outer ++ inner = js := List.takeWhile_append_dropWhile
    obtain ⟨e, he, hp, ht⟩ := ih (fun c hc => hbs c (by simp [hc]))
      (fun c (hc : c ∈ inner) => hjs c (by simp [← hsplit, hc]))
    have hb : (Operand.before b e).Valid σ := ⟨hbs b (by simp), he⟩
    obtain ⟨g, hg, hgp, hgt⟩ := exists_behind hb
      (fun c (hc : c ∈ outer) => hjs c (by simp [← hsplit, hc]))
    refine ⟨g, hg, ?_, ?_⟩
    · rw [hgp, Operand.pieces, hp, ← hsplit]
      simp
    · rw [hgt, Operand.term, ht]
      rfl

/-- Items of one kind of operator come from the tokens of these operators. -/
theorem Signature.pieces_of_operators {ps : List Piece} {cs : List Char} {g : Char → Item}
    {f : Fixity} (hg : ∀ p c, σ.Plays p (g c) → p = .token c ∧ σ.fixity? c = some f)
    (h : ps.map σ.itemOf = (cs.map g).map some) :
    ps = cs.map .token ∧ ∀ c ∈ cs, σ.fixity? c = some f := by
  induction cs generalizing ps with
  | nil => exact ⟨List.map_eq_nil_iff.mp h, by simp⟩
  | cons c cs ih =>
    obtain ⟨p, qs, rfl, hp, hqs⟩ := List.map_eq_cons_iff.mp h
    obtain ⟨rfl, hf⟩ := hg p c (itemOf_eq_some_iff.mp hp)
    obtain ⟨rfl, hfs⟩ := ih hqs
    refine ⟨rfl, fun d hd => ?_⟩
    rcases List.mem_cons.mp hd with rfl | hd
    · exact hf
    · exact hfs d hd

/-- The pieces are a letter, a constant or a group that stands for a term, with unary operators
around it. Together they stand for `t`. -/
def Signature.IsOperand (σ : Signature) (ps : List Piece) (t : Term) : Prop :=
  ∃ (bs : List Char) (p : Piece) (u : Term) (ks : List Char),
    ps = bs.map .token ++ p :: ks.map .token ∧ σ.Plays p (.operand u) ∧
    (∀ c ∈ bs, σ.fixity? c = some .before) ∧ (∀ c ∈ ks, σ.fixity? c = some .behind) ∧
    t = σ.applyUnary ks.reverse u bs

theorem Signature.isOperand_of_items {ps : List Piece} {bs ks : List Char} {u : Term}
    (h : ps.map σ.itemOf = (Item.around bs u ks).map some) :
    σ.IsOperand ps (σ.applyUnary ks.reverse u bs) := by
  rw [Item.around, List.map_append, List.map_cons] at h
  obtain ⟨front, back, rfl, hb, h⟩ := List.map_eq_append_iff.mp h
  obtain ⟨p, back, rfl, hp, hk⟩ := List.map_eq_cons_iff.mp h
  obtain ⟨rfl, hbs⟩ := Signature.pieces_of_operators (f := .before)
    (fun p c hpc => by cases hpc with | before h => exact ⟨rfl, h⟩) hb
  obtain ⟨rfl, hks⟩ := Signature.pieces_of_operators (f := .behind)
    (fun p c hpc => by cases hpc with | behind h => exact ⟨rfl, h⟩) hk
  exact ⟨bs, p, u, ks, rfl, itemOf_eq_some_iff.mp hp, hbs, hks, rfl⟩

/-- Pieces stand for a term as one operand, or as two with a binary operator between them. -/
theorem Signature.termOf_cases {ps : List Piece} {t : Term} (h : σ.termOf ps = some t) :
    σ.IsOperand ps t ∨ ∃ ps₁ op ps₂ t₁ t₂, ps = ps₁ ++ .token op :: ps₂ ∧
      σ.fixity? op = some .between ∧ σ.IsOperand ps₁ t₁ ∧ σ.IsOperand ps₂ t₂ ∧
      t = .node op [t₁, t₂] := by
  obtain ⟨items, hi, ha⟩ := termOf_eq_some_iff.mp h
  rcases assemble_eq_some_iff.mp ha with hf | ⟨l, op, rest, r, hl, hr, rfl⟩
  · obtain ⟨bs, u, ks, rfl, rfl⟩ := eq_append_of_frontOperand hf
    rw [List.append_nil] at hi
    exact .inl (isOperand_of_items hi)
  · obtain ⟨bs, u, ks, rfl, rfl⟩ := eq_append_of_frontOperand hl
    obtain ⟨bs', u', ks', rfl, rfl⟩ := eq_append_of_frontOperand hr
    rw [List.append_nil, List.map_append, List.map_cons] at hi
    obtain ⟨ps₁, back, rfl, h₁, hi⟩ := List.map_eq_append_iff.mp hi
    obtain ⟨p, ps₂, rfl, hp, h₂⟩ := List.map_eq_cons_iff.mp hi
    cases itemOf_eq_some_iff.mp hp with
    | between ho =>
      exact .inr ⟨ps₁, op, ps₂, _, _, rfl, ho, isOperand_of_items h₁, isOperand_of_items h₂, rfl⟩

/-- Pieces that make up an operand come from a derivation of it, if the groups do. -/
theorem Operand.exists_of_isOperand {ps : List Piece} {t : Term}
    (ih : ∀ qs t, .group qs ∈ ps → σ.termOf qs = some t →
      ∃ f : Formula, f.Valid σ ∧ f.pieces = qs ∧ f.term = t)
    (h : σ.IsOperand ps t) : ∃ d : Operand, d.Valid σ ∧ d.pieces = ps ∧ d.term = t := by
  obtain ⟨bs, p, u, ks, rfl, hp, hbs, hks, rfl⟩ := h
  obtain ⟨d, hd, hdp, hdt⟩ : ∃ d : Operand, d.Valid σ ∧ d.pieces = [p] ∧ d.term = u := by
    cases hp with
    | atom hc => exact ⟨.atom _, hc, rfl, rfl⟩
    | group ht =>
      obtain ⟨f, hf, rfl, rfl⟩ := ih _ _ (by simp) ht
      exact ⟨.group f, hf, rfl, rfl⟩
  have hjs : ∀ c ∈ ks.reverse, σ.fixity? c = some .behind :=
    fun c hc => hks c (List.mem_reverse.mp hc)
  obtain ⟨e, he, hep, het⟩ := exists_unary hd hbs hjs
  exact ⟨e, he, by simp [hep, hdp], by rw [het, hdt]⟩

/-- Every term that is read has a derivation from the pieces it is read from. -/
theorem Formula.exists_of_termOf {ps : List Piece} {t : Term} (h : σ.termOf ps = some t) :
    ∃ f : Formula, f.Valid σ ∧ f.pieces = ps ∧ f.term = t := by
  have ih : ∀ qs t, .group qs ∈ ps → σ.termOf qs = some t →
      ∃ f : Formula, f.Valid σ ∧ f.pieces = qs ∧ f.term = t :=
    fun qs t hq hqt => exists_of_termOf hqt
  rcases Signature.termOf_cases h with h | ⟨ps₁, op, ps₂, t₁, t₂, rfl, ho, h₁, h₂, rfl⟩
  · obtain ⟨d, hd, hp, ht⟩ := Operand.exists_of_isOperand ih h
    exact ⟨.single d, hd, hp, ht⟩
  · obtain ⟨d, hd, rfl, hdt⟩ := Operand.exists_of_isOperand
      (fun rs t hr => ih rs t (List.mem_append_left _ hr)) h₁
    obtain ⟨e, he, rfl, het⟩ := Operand.exists_of_isOperand
      (fun rs t hr => ih rs t (List.mem_append_right _ (List.mem_cons_of_mem _ hr))) h₂
    exact ⟨.pair d op e, ⟨hd, ho, he⟩, rfl, by rw [Formula.term, hdt, het]⟩
termination_by sizeOf ps
decreasing_by
  have hs := List.sizeOf_lt_of_mem hq
  simp only [Piece.group.sizeOf_spec] at hs
  omega

mutual

/-- The pieces of an operand are items that make up an operand. -/
theorem Operand.exists_items {d : Operand} (h : d.Valid σ) :
    ∃ bs u ks, d.pieces.map σ.itemOf = (Item.around bs u ks).map some := by
  match d with
  | .atom c =>
    refine ⟨[], .leaf c, [], ?_⟩
    simp [Operand.pieces, Item.around, Signature.itemOf_eq_some_iff.mpr (.atom h)]
  | .before op d =>
    obtain ⟨bs, u, ks, hi⟩ := Operand.exists_items h.2
    refine ⟨op :: bs, u, ks, ?_⟩
    simp [Operand.pieces, Item.around, hi, Signature.itemOf_eq_some_iff.mpr (.before h.1)]
  | .behind d op =>
    obtain ⟨bs, u, ks, hi⟩ := Operand.exists_items h.1
    refine ⟨bs, u, ks ++ [op], ?_⟩
    simp [Operand.pieces, Item.around, hi, Signature.itemOf_eq_some_iff.mpr (.behind h.2)]
  | .group f =>
    obtain ⟨t, ht⟩ := Formula.exists_term (f := f) h
    refine ⟨[], t, [], ?_⟩
    simp [Operand.pieces, Item.around, Signature.itemOf_eq_some_iff.mpr (.group ht)]

theorem Formula.exists_term {f : Formula} (h : f.Valid σ) : ∃ t, σ.termOf f.pieces = some t := by
  match f with
  | .single d =>
    obtain ⟨bs, u, ks, hi⟩ := Operand.exists_items (d := d) h
    have hf := Signature.assemble_eq_some_iff.mpr (.inl (σ.frontOperand_around bs ks u))
    exact ⟨_, Signature.termOf_eq_some_iff.mpr ⟨_, hi, hf⟩⟩
  | .pair l op r =>
    obtain ⟨bs, u, ks, hl⟩ := Operand.exists_items h.1
    obtain ⟨bs', u', ks', hr⟩ := Operand.exists_items h.2.2
    have hf := σ.frontOperand_append bs ks u (.between op :: Item.around bs' u' ks')
      (by simp [Item.behind?])
    have ha := Signature.assemble_eq_some_iff.mpr
      (.inr ⟨_, op, _, _, hf, σ.frontOperand_around bs' ks' u', rfl⟩)
    have ho : σ.itemOf (.token op) = some (.between op) :=
      Signature.itemOf_eq_some_iff.mpr (.between h.2.1)
    exact ⟨_, Signature.termOf_eq_some_iff.mpr ⟨_, by simp [Formula.pieces, hl, hr, ho], ha⟩⟩

end

/-- A pass over tokens in which `n` groups are open. -/
structure CountsGroups {α : Type} (f : Nat → List Char → α) : Prop where
  opening : ∀ n cs, f n ('(' :: cs) = f (n + 1) cs
  closing : ∀ n cs, f (n + 1) (')' :: cs) = f n cs
  other : ∀ n c cs, c ≠ '(' → c ≠ ')' → f n (c :: cs) = f n cs

mutual

theorem CountsGroups.pass_tokens {α : Type} {f : Nat → List Char → α} (hf : CountsGroups f)
    {p : Piece} (hp : p.isProper = true) (n : Nat) (cs : List Char) :
    f n (p.tokens ++ cs) = f n cs := by
  match p with
  | .token c =>
    simp only [Piece.isProper, Bool.and_eq_true, bne_iff_ne] at hp
    exact hf.other n c cs hp.1 hp.2
  | .group ps =>
    have hps : Piece.isProperList ps = true := hp
    have htokens : (Piece.group ps).tokens ++ cs =
        '(' :: (Piece.tokensList ps ++ ')' :: cs) := by
      simp [Piece.tokens]
    rw [htokens, hf.opening, hf.pass_tokensList hps, hf.closing]

/-- Behind balanced tokens as many groups are open as before them. -/
theorem CountsGroups.pass_tokensList {α : Type} {f : Nat → List Char → α} (hf : CountsGroups f)
    {ps : List Piece} (hp : Piece.isProperList ps = true) (n : Nat) (cs : List Char) :
    f n (Piece.tokensList ps ++ cs) = f n cs := by
  match ps with
  | [] => rfl
  | p :: ps =>
    simp only [Piece.isProperList, Bool.and_eq_true] at hp
    rw [Piece.tokensList, List.append_assoc, hf.pass_tokens hp.1, hf.pass_tokensList hp.2]

end

theorem countsGroups_parenthesisFault? : CountsGroups parenthesisFault? where
  opening n cs := by simp [parenthesisFault?]
  closing n cs := by simp [parenthesisFault?]
  other n c cs ho hc := by simp [parenthesisFault?, ho, hc]

theorem parenthesisFault?_of_nest {cs : List Char} {ps : List Piece} (h : Piece.nest cs = some ps) :
    parenthesisFault? 0 ('(' :: cs ++ [')']) = none := by
  obtain ⟨rfl, hp⟩ := Piece.nest_eq_some_iff.mp h
  simp [parenthesisFault?, countsGroups_parenthesisFault?.pass_tokensList hp]

theorem Signature.readTokens_eq_ok_iff {w : List Char} {t : Term} :
    σ.readTokens w = .ok t ↔ ∃ ps, Piece.nest w = some ps ∧ σ.termOf ps = some t := by
  rw [readTokens, ← Option.bind_eq_some_iff]
  constructor
  · intro h
    split at h
    · cases h
    · split at h
      · next u hu => rw [hu, Except.ok.inj h]
      · cases h
  · intro h
    obtain ⟨ps, hn, ht⟩ := Option.bind_eq_some_iff.mp h
    rw [parenthesisFault?_of_nest hn, h]

/-- A term that is read is built by a derivation of the tokens. -/
theorem Formula.exists_of_readTokens {w : List Char} {t : Term} (h : σ.readTokens w = .ok t) :
    ∃ f : Formula, f.Valid σ ∧ f.tokens = w ∧ f.term = t := by
  obtain ⟨ps, hn, ht⟩ := Signature.readTokens_eq_ok_iff.mp h
  obtain ⟨f, hf, rfl, rfl⟩ := exists_of_termOf ht
  refine ⟨f, hf, ?_, rfl⟩
  rw [← f.tokensList_pieces]
  exact (Piece.nest_eq_some_iff.mp hn).1

/-- Every word with a derivation is read. -/
theorem Formula.readTokens_tokens {f : Formula} (h : f.Valid σ) :
    ∃ t, σ.readTokens f.tokens = .ok t := by
  obtain ⟨t, ht⟩ := exists_term h
  exact ⟨t, Signature.readTokens_eq_ok_iff.mpr ⟨f.pieces, nest_tokens h, ht⟩⟩

/-- Without unary operators of both kinds the term of the derivation is read. -/
theorem Formula.readTokens_tokens_eq (hσ : ¬ σ.MixesUnary) {f : Formula} (h : f.Valid σ) :
    σ.readTokens f.tokens = .ok f.term := by
  obtain ⟨t, ht⟩ := readTokens_tokens h
  obtain ⟨g, hg, hw, rfl⟩ := exists_of_readTokens ht
  rw [ht, eq_of_tokens_eq hσ hg h hw]

theorem Signature.read_eq_readTokens {formula : String} {w : List Char}
    (h : σ.tokens formula = .ok w) : σ.read formula = σ.readTokens w := by
  rw [read, h]
  rfl

/-- A formula that is read has a derivation of the term that it is read as. -/
theorem Formula.exists_of_read {formula : String} {t : Term} (h : σ.read formula = .ok t) :
    ∃ f : Formula, f.Valid σ ∧ σ.tokens formula = .ok f.tokens ∧ f.term = t := by
  obtain ⟨w, hw, hread⟩ := bind_eq_ok_iff.mp h
  obtain ⟨f, hf, rfl, hterm⟩ := exists_of_readTokens hread
  exact ⟨f, hf, hw, hterm⟩

theorem Signature.wellFormed_of_read {formula : String} {t : Term} (h : σ.read formula = .ok t) :
    σ.wellFormed t = true := by
  obtain ⟨f, hf, -, rfl⟩ := Formula.exists_of_read h
  exact f.wellFormed_term hf

/-- A formula whose tokens are `w` is read exactly if `w` has a derivation, and as the term of one.
Without unary operators of both kinds there is only one, so its term is what is read. -/
theorem Signature.read_derivable (σ : Signature) (formula : String) (w : List Char)
    (hw : σ.tokens formula = .ok w) :
    ((∃ t, σ.read formula = .ok t) ↔ ∃ f : Formula, f.Valid σ ∧ f.tokens = w) ∧
    (∀ t, σ.read formula = .ok t → ∃ f : Formula, f.Valid σ ∧ f.tokens = w ∧ f.term = t) ∧
    (¬ σ.MixesUnary → ∀ f : Formula, f.Valid σ → f.tokens = w →
      σ.read formula = .ok f.term ∧ ∀ g : Formula, g.Valid σ → g.tokens = w → g = f) := by
  rw [read_eq_readTokens hw]
  refine ⟨⟨?_, ?_⟩, ?_, ?_⟩
  · rintro ⟨t, ht⟩
    obtain ⟨f, hf, hfw, -⟩ := Formula.exists_of_readTokens ht
    exact ⟨f, hf, hfw⟩
  · rintro ⟨f, hf, rfl⟩
    exact Formula.readTokens_tokens hf
  · intro t ht
    exact Formula.exists_of_readTokens ht
  · rintro hσ f hf rfl
    refine ⟨Formula.readTokens_tokens_eq hσ hf, ?_⟩
    intro g hg hgw
    exact Formula.eq_of_tokens_eq hσ hg hf hgw

theorem Signature.read_derivable_of_disjunction :
    let σ : Signature := ⟨[.plain '!' "not" "¬" .before, .plain '|' "or" "∨" .between], .plain,
      by decide⟩
    let f : Formula := .pair (.atom 'A') '|' (.before '!' (.group (.single (.atom 'B'))))
    σ.tokens "A ∨ ¬(B)" = .ok f.tokens ∧ f.Valid σ ∧ ¬ σ.MixesUnary ∧
      σ.read "A ∨ ¬(B)" = .ok f.term := by
  intro σ f
  have hw : σ.tokens "A ∨ ¬(B)" = .ok f.tokens := rfl
  have hA : (Operand.atom 'A').Valid σ := .inl rfl
  have hB : (Operand.atom 'B').Valid σ := .inl rfl
  have hf : f.Valid σ := ⟨hA, rfl, rfl, hB⟩
  have hm : ¬ σ.MixesUnary := by
    rintro ⟨-, s, hs, h⟩
    revert s
    decide
  exact ⟨hw, hf, hm, ((read_derivable σ _ _ hw).2.2 hm f hf rfl).1⟩

end Equational
