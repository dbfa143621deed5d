import Equational.Formula.Descent
import Equational.Proofs.Formula.Grammar

namespace Equational

variable {σ : Signature} {c op : Char} {cs w : List Char} {t u : Term} {ps : List Piece}

theorem checkParentheses_eq (n : Nat) (cs : List Char) :
    checkParentheses n cs = match parenthesisFault? n cs with
      | some e => .error e
      | none => .ok () := by
  induction cs generalizing n with
  | nil => cases n <;> simp [checkParentheses, parenthesisFault?]
  | cons c cs ih =>
    have hn : ¬ (n : Int) < 0 := by omega
    by_cases ho : c = '('
    · have hd : ¬ (n : Int) + 1 < 0 := by omega
      have h := ih (n + 1)
      push_cast at h
      simp [checkParentheses, parenthesisFault?, depthBehind, ho, hd, h]
    · by_cases hc : c = ')'
      · cases n with
        | zero => simp [checkParentheses, parenthesisFault?, depthBehind, hc]
        | succ n =>
          have hd : ((n + 1 : Nat) : Int) - 1 = n := by omega
          have hn : ¬ (n : Int) < 0 := by omega
          simp [checkParentheses, parenthesisFault?, depthBehind, hc, hn, ih n]
      · simp [checkParentheses, parenthesisFault?, depthBehind, ho, hc, hn, ih n]

/-- A group that is open can only be closed by a token behind balanced ones. -/
theorem countsGroups_encloses : CountsGroups fun n => encloses (n + 1) where
  opening n cs := by
    have hn : ¬ (n : Int) + 1 + 1 = 0 := by omega
    simp [encloses, depthBehind, hn]
  closing n cs := by
    have hn : ¬ (n : Int) + 1 = 0 := by omega
    simp [encloses, depthBehind, hn]
  other n c cs ho hc := by
    have hn : ¬ (n : Int) + 1 = 0 := by omega
    simp [encloses, depthBehind, ho, hc, hn]

theorem encloses_group (hp : Piece.isProperList ps = true) :
    encloses 0 ('(' :: Piece.tokensList ps ++ [')']) = true := by
  have h := countsGroups_encloses.pass_tokensList hp 0 [')']
  simp only [Int.ofNat_zero, Int.zero_add] at h
  simp [encloses, depthBehind, h]

mutual

theorem Piece.splitPlace?_tokens {p : Piece} (hp : p.isProper = true) (n : Nat)
    (h : n = 0 → ¬ p.HasFixity σ [.between]) (i : Nat) (found : Option Nat) (cs : List Char) :
    σ.splitPlace? n i found (p.tokens ++ cs) = σ.splitPlace? n (i + p.tokens.length) found cs := by
  match p with
  | .token c =>
    simp only [Piece.isProper, Bool.and_eq_true, bne_iff_ne] at hp
    have hc : ¬ ((n : Int) = 0 ∧ σ.fixity? c = some .between) := by
      rintro ⟨hn, hf⟩
      exact h (by omega) ((Piece.hasFixity_token_iff hf).mpr (by simp))
    simp only [Piece.tokens, List.singleton_append, Signature.splitPlace?, if_neg hp.1, if_neg hp.2,
      if_neg hc, List.length_singleton]
  | .group ps =>
    have hps : Piece.isProperList ps = true := hp
    have hin := Piece.splitPlace?_tokensList hps (n + 1) (fun hn => absurd hn (by omega)) (i + 1)
      found (')' :: cs)
    push_cast at hin
    simp [Piece.tokens, Signature.splitPlace?, hin]
    congr 1
    omega

/-- Tokens without a binary operator outside of groups are passed over. -/
theorem Piece.splitPlace?_tokensList {ps : List Piece} (hp : isProperList ps = true) (n : Nat)
    (h : n = 0 → ∀ p ∈ ps, ¬ p.HasFixity σ [.between]) (i : Nat) (found : Option Nat)
    (cs : List Char) :
    σ.splitPlace? n i found (tokensList ps ++ cs) =
      σ.splitPlace? n (i + (tokensList ps).length) found cs := by
  match ps with
  | [] => rfl
  | p :: ps =>
    simp only [Piece.isProperList, Bool.and_eq_true] at hp
    rw [Piece.tokensList, List.append_assoc,
      Piece.splitPlace?_tokens hp.1 n (fun hn => h hn p (by simp)),
      Piece.splitPlace?_tokensList hp.2 n (fun hn q hq => h hn q (by simp [hq])),
      List.length_append, Nat.add_assoc]

end

/-- The ways in which tokens can be taken for an operand. -/
theorem Signature.descendOperand_cases (h : σ.descendOperand w = some t) :
    (∃ c, w = [c] ∧ (Operand.atom c).Valid σ ∧ t = .leaf c) ∨
    (∃ op v u, w = op :: v ∧ σ.fixity? op = some .before ∧ σ.descendOperand v = some u ∧
      t = .node op [u]) ∨
    (∃ op v u, w = v ++ [op] ∧ σ.fixity? op = some .behind ∧ σ.descendOperand v = some u ∧
      t = .node op [u]) ∨
    ∃ v, w = '(' :: v ++ [')'] ∧ σ.descendFormula v = some t := by
  match w with
  | [] =>
    rw [descendOperand] at h
    cases h
  | [c] =>
    rw [descendOperand] at h
    split at h
    · next hc =>
      cases h
      exact .inl ⟨c, rfl, hc, rfl⟩
    · cases h
  | c :: d :: ds =>
    have hlast := List.dropLast_concat_getLast (List.cons_ne_nil d ds)
    rw [descendOperand] at h
    split at h
    · next u hu =>
      cases h
      obtain ⟨s, hs, hsu⟩ := List.exists_of_findSome?_eq_some hu
      have hf := σ.fixity?_of_mem (List.mem_filter.mp hs).1
      split at hsu
      · next hb =>
        split at hsu
        · next hc =>
          obtain ⟨v, hv, rfl⟩ := Option.map_eq_some_iff.mp hsu
          exact .inr (.inl ⟨s.id, _, v, by rw [hc], by rw [hf, hb], hv, rfl⟩)
        · cases hsu
      · next hb =>
        split at hsu
        · next hc =>
          obtain ⟨v, hv, rfl⟩ := Option.map_eq_some_iff.mp hsu
          refine .inr (.inr (.inl ⟨s.id, _, v, ?_, by rw [hf, hb], hv, rfl⟩))
          rw [List.dropLast_cons_cons, ← hc, List.cons_append, hlast]
        · cases hsu
      · cases hsu
    · split at h
      · next hg =>
        refine .inr (.inr (.inr ⟨_, ?_, h⟩))
        rw [hg.1, ← hg.2.1, List.cons_append, hlast]
      · cases h

theorem Signature.exists_of_splitPlace? {depth : Int} {i k : Nat} {found : Option Nat}
    (h : σ.splitPlace? depth i found cs = some k) :
    found = some k ∨ ∃ j op, k = i + j ∧ cs[j]? = some op ∧ σ.fixity? op = some .between := by
  induction cs generalizing depth i found with
  | nil => exact .inl h
  | cons c cs ih =>
    have hstep {depth found} (h : σ.splitPlace? depth (i + 1) found cs = some k) :
        found = some k ∨ ∃ j op, k = i + j ∧ (c :: cs)[j]? = some op ∧
          σ.fixity? op = some .between := by
      rcases ih h with h | ⟨j, op, rfl, hop, hf⟩
      · exact .inl h
      · exact .inr ⟨j + 1, op, by omega, hop, hf⟩
    rw [splitPlace?.eq_def] at h
    dsimp only at h
    split at h
    · exact hstep h
    · split at h
      · exact hstep h
      · split at h
        · next hc =>
          split at h
          · cases h
          · rcases hstep h with hi | hj
            · exact .inr ⟨0, c, (Option.some.inj hi).symm, rfl, hc.2⟩
            · exact .inr hj
        · exact hstep h

theorem Signature.descendFormula_cases (h : σ.descendFormula w = some t) :
    σ.descendOperand w = some t ∨
      ∃ l op r u v, w = l ++ op :: r ∧ σ.fixity? op = some .between ∧
        σ.descendOperand l = some u ∧ σ.descendOperand r = some v ∧ t = .node op [u, v] := by
  rw [descendFormula] at h
  split at h
  · next hu =>
    cases h
    exact .inl hu
  · simp only [Option.bind_eq_bind, Option.bind_eq_some_iff] at h
    obtain ⟨i, hi, op, hop, u, hu, v, hv, ht⟩ := h
    cases ht
    rcases exists_of_splitPlace? hi with hi | ⟨j, op', hij, hop', hf⟩
    · cases hi
    · obtain rfl : i = j := by omega
      obtain rfl := Option.some.inj (hop.symm.trans hop')
      obtain ⟨hlt, rfl⟩ := List.getElem?_eq_some_iff.mp hop
      refine .inr ⟨_, _, _, u, v, ?_, hf, hu, hv, rfl⟩
      rw [List.getElem_cons_drop hlt, List.take_append_drop]

mutual

theorem Operand.exists_of_descend {w : List Char} {t : Term} (h : σ.descendOperand w = some t) :
    ∃ d : Operand, d.Valid σ ∧ d.tokens = w ∧ d.term = t := by
  rcases Signature.descendOperand_cases h with ⟨c, rfl, hc, rfl⟩ | ⟨op, v, u, rfl, ho, hv, rfl⟩ |
    ⟨op, v, u, rfl, ho, hv, rfl⟩ | ⟨v, rfl, hv⟩
  · exact ⟨.atom c, hc, rfl, rfl⟩
  · obtain ⟨d, hd, rfl, rfl⟩ := Operand.exists_of_descend hv
    exact ⟨.before op d, ⟨ho, hd⟩, rfl, rfl⟩
  · obtain ⟨d, hd, rfl, rfl⟩ := Operand.exists_of_descend hv
    exact ⟨.behind d op, ⟨hd, ho⟩, rfl, rfl⟩
  · obtain ⟨f, hf, rfl, rfl⟩ := Formula.exists_of_descend hv
    exact ⟨.group f, hf, rfl, rfl⟩
termination_by 2 * w.length

/-- What the descent reads is built by a derivation of the tokens. -/
theorem Formula.exists_of_descend {w : List Char} {t : Term} (h : σ.descendFormula w = some t) :
    ∃ f : Formula, f.Valid σ ∧ f.tokens = w ∧ f.term = t := by
  rcases Signature.descendFormula_cases h with hw | ⟨l, op, r, u, v, rfl, ho, hl, hr, rfl⟩
  · obtain ⟨d, hd, hdw, hdt⟩ := Operand.exists_of_descend hw
    exact ⟨.single d, hd, hdw, hdt⟩
  · obtain ⟨d, hd, rfl, rfl⟩ := Operand.exists_of_descend hl
    obtain ⟨e, he, rfl, rfl⟩ := Operand.exists_of_descend hr
    exact ⟨.pair d op e, ⟨hd, ho, he⟩, rfl, rfl⟩
termination_by 2 * w.length + 1

end

namespace Signature

theorem pairwise_position (σ : Signature) :
    σ.symbols.Pairwise fun r s => σ.position r.id < σ.position s.id := by
  have hpos (i : Nat) (hi : i < σ.symbols.length) : σ.position σ.symbols[i].id = i := by
    rw [position, List.findIdx_eq hi]
    refine ⟨by simp, fun j hj => ?_⟩
    have hne := List.pairwise_iff_getElem.mp σ.lawful.ids_ne j i (by omega) hi hj
    simpa using hne
  rw [List.pairwise_iff_getElem]
  intro i j hi hj hij
  rwa [hpos i hi, hpos j hj]

/-- The first operator for which there is a result decides. -/
theorem findSome?_unaryOperators {f : Symbol → Option Term} {s : Symbol}
    (hs : s ∈ σ.unaryOperators) (hf : f s = some t)
    (hfirst : ∀ r ∈ σ.unaryOperators, σ.position r.id < σ.position s.id → f r = none) :
    σ.unaryOperators.findSome? f = some t := by
  obtain ⟨front, back, he⟩ := List.append_of_mem hs
  have hp : σ.unaryOperators.Pairwise _ := σ.pairwise_position.filter _
  rw [he, List.pairwise_append] at hp
  refine List.findSome?_eq_some_iff.mpr ⟨front, s, back, he, hf, fun r hr => ?_⟩
  exact hfirst r (by simp [he, hr]) (hp.2.2 r hr s (by simp))

theorem exists_mem_unaryOperators {f : Fixity} (h : σ.fixity? op = some f)
    (hf : f.isUnary = true) : ∃ s ∈ σ.unaryOperators, s.id = op ∧ s.fixity = f := by
  obtain ⟨s, hs, ho, rfl⟩ := exists_mem_of_fixity? h
  exact ⟨s, List.mem_filter.mpr ⟨hs, hf⟩, ho, rfl⟩

theorem fixity?_of_mem_unaryOperators {s : Symbol} (hs : s ∈ σ.unaryOperators) :
    σ.fixity? s.id = some s.fixity :=
  fixity?_of_mem (List.mem_filter.mp hs).1

theorem ne_id_of_isReserved (hc : isReserved c = true) {s : Symbol} (hs : s ∈ σ.unaryOperators) :
    c ≠ s.id := by
  rintro rfl
  rw [isReserved_of_fixity? (fixity?_of_mem_unaryOperators hs)] at hc
  cases hc

theorem ne_nil_of_descendOperand (h : σ.descendOperand w = some t) : w ≠ [] := by
  rintro rfl
  rw [descendOperand] at h
  cases h

/-- An operator before an operand is the outermost one if none behind it comes earlier. -/
theorem descendOperand_before (ho : σ.fixity? op = some .before)
    (hw : σ.descendOperand w = some t)
    (hlast : ∀ c, w.getLast? = some c → σ.fixity? c = some .behind → σ.precedes c op = false) :
    σ.descendOperand (op :: w) = some (.node op [t]) := by
  obtain ⟨d, ds, rfl⟩ := List.exists_cons_of_ne_nil (ne_nil_of_descendOperand hw)
  obtain ⟨s, hs, rfl, hb⟩ := exists_mem_unaryOperators ho rfl
  rw [descendOperand, findSome?_unaryOperators (t := .node s.id [t]) hs]
  · simp [hb, hw]
  · intro r hr hlt
    have hf := fixity?_of_mem_unaryOperators hr
    split
    · next hrb =>
      have hne : s.id ≠ r.id := fun he => absurd hlt (by simp [he])
      rw [if_neg hne]
    · next hrb =>
      rw [if_neg]
      intro he
      have hp := hlast r.id (by rw [← he]; exact List.getLast?_eq_some_getLast _) (by rw [hf, hrb])
      simp [precedes, hlt] at hp
    · rfl

/-- An operator behind an operand is the outermost one if it comes before all those in front. -/
theorem descendOperand_behind (ho : σ.fixity? op = some .behind)
    (hw : σ.descendOperand w = some t)
    (hfront : ∀ c, w.head? = some c → σ.fixity? c = some .before → σ.precedes op c = true) :
    σ.descendOperand (w ++ [op]) = some (.node op [t]) := by
  obtain ⟨c, cs, rfl⟩ := List.exists_cons_of_ne_nil (ne_nil_of_descendOperand hw)
  obtain ⟨d, ds, hd⟩ := List.exists_cons_of_ne_nil (List.append_ne_nil_of_right_ne_nil cs
    (List.cons_ne_nil op []))
  have hl : (d :: ds).getLast (List.cons_ne_nil d ds) = op := by simp [← hd]
  have hc : (c :: d :: ds).dropLast = c :: cs := by
    rw [← hd, ← List.cons_append, List.dropLast_concat]
  obtain ⟨s, hs, rfl, hb⟩ := exists_mem_unaryOperators ho rfl
  rw [List.cons_append, hd, descendOperand, findSome?_unaryOperators (t := .node s.id [t]) hs]
  · simp [hb, hl, hc, hw]
  · intro r hr hlt
    have hf := fixity?_of_mem_unaryOperators hr
    split
    · next hrb =>
      rw [if_neg]
      intro he
      have hp := hfront r.id (by rw [← he]; rfl) (by rw [hf, hrb])
      simp only [precedes, decide_eq_true_eq] at hp
      omega
    · next hrb =>
      have hne : s.id ≠ r.id := fun he => absurd hlt (by simp [he])
      rw [hl, if_neg hne]
    · rfl

/-- Parentheses that belong together hold a formula. -/
theorem descendOperand_group (h : encloses 0 ('(' :: w ++ [')']) = true) :
    σ.descendOperand ('(' :: w ++ [')']) = σ.descendFormula w := by
  obtain ⟨d, ds, hd⟩ := List.exists_cons_of_ne_nil (List.append_ne_nil_of_right_ne_nil w
    (List.cons_ne_nil ')' []))
  have hl : (d :: ds).getLast (List.cons_ne_nil d ds) = ')' := by simp [← hd]
  have hw : (d :: ds).dropLast = w := by rw [← hd, List.dropLast_concat]
  rw [List.cons_append, hd] at h ⊢
  rw [descendOperand, List.findSome?_eq_none_iff.mpr]
  · simp [hl, hw, h]
  · intro s hs
    split
    · rw [if_neg (ne_id_of_isReserved rfl hs)]
    · rw [hl, if_neg (ne_id_of_isReserved rfl hs)]
    · rfl

theorem applyUnary_cons_before {b : Char} {bs js : List Char}
    (h : ∀ j, js.head? = some j → σ.precedes j b = false) :
    σ.applyUnary js t (b :: bs) = .node b [σ.applyUnary js t bs] := by
  cases js with
  | nil => rfl
  | cons j js => simp [applyUnary, h j rfl, applyAll]

theorem applyUnary_cons_behind {b j : Char} {bs js : List Char} (h : σ.precedes j b = true) :
    σ.applyUnary (j :: js) t (b :: bs) = .node j [σ.applyUnary js t (b :: bs)] := by
  simp [applyUnary, h, applyAll]

/-- Operators around an operand are taken off in the order in which they are applied last. -/
theorem descendOperand_around (hw : σ.descendOperand w = some t)
    (hhead : ∀ c, w.head? = some c → σ.fixity? c ≠ some .before)
    (hlast : ∀ c, w.getLast? = some c → σ.fixity? c ≠ some .behind) {bs js : List Char}
    (hbs : ∀ c ∈ bs, σ.fixity? c = some .before) (hjs : ∀ c ∈ js, σ.fixity? c = some .behind) :
    σ.descendOperand (bs ++ w ++ js.reverse) = some (σ.applyUnary js t bs) := by
  have hne := ne_nil_of_descendOperand hw
  induction bs generalizing js with
  | nil =>
    induction js with
    | nil => simpa [applyUnary, applyAll] using hw
    | cons j js ihj =>
      rw [List.reverse_cons, ← List.append_assoc]
      refine descendOperand_behind (hjs j (by simp)) (ihj fun c hc => hjs c (by simp [hc])) ?_
      intro c hc hf
      refine absurd hf (hhead c ?_)
      simpa [hne] using hc
  | cons b bs ih =>
    have hbs' : ∀ c ∈ bs, σ.fixity? c = some .before := fun c hc => hbs c (by simp [hc])
    induction js with
    | nil =>
      rw [applyUnary_cons_before (by simp)]
      refine descendOperand_before (hbs b (by simp)) (ih hbs' hjs) ?_
      intro c hc hf
      refine absurd hf (hlast c ?_)
      simpa [hne] using hc
    | cons j js ihj =>
      have hjs' : ∀ c ∈ js, σ.fixity? c = some .behind := fun c hc => hjs c (by simp [hc])
      -- of the two outermost operators the one that comes first in the signature is taken off
      by_cases hp : σ.precedes j b = true
      · rw [applyUnary_cons_behind hp, List.reverse_cons, ← List.append_assoc]
        refine descendOperand_behind (hjs j (by simp)) (ihj hjs') ?_
        intro c hc _
        obtain rfl : b = c := by simpa using hc
        exact hp
      · rw [applyUnary_cons_before (by simpa using hp)]
        refine descendOperand_before (hbs b (by simp)) (ih hbs' hjs) ?_
        intro c hc _
        obtain rfl : j = c := by simpa using hc
        simpa using hp

theorem tokensList_tokens (cs : List Char) : Piece.tokensList (cs.map .token) = cs := by
  induction cs with
  | nil => rfl
  | cons c cs ih => simp [Piece.tokensList, Piece.tokens, ih]

theorem descendOperand_atom (h : (Operand.atom c).Valid σ) :
    σ.descendOperand [c] = some (.leaf c) := by
  rw [descendOperand]
  exact if_pos h

/-- An operand without operators around it neither begins nor ends with one. -/
theorem Plays.not_isUnary {p : Piece} (h : σ.Plays p (.operand u))
    (hc : p.tokens.head? = some c ∨ p.tokens.getLast? = some c) {f : Fixity}
    (hf : f.isUnary = true) : σ.fixity? c ≠ some f := by
  cases h with
  | atom ha =>
    obtain rfl : _ = c := by simpa [Piece.tokens] using hc
    rcases ha with ha | ha
    · rw [fixity?_of_isLetter ha]
      exact (Option.some_ne_none f).symm
    · rw [ha]
      rintro ⟨⟩
      cases hf
  | group ht =>
    have hr : isReserved c = true := by
      rcases hc with hc | hc
      · obtain rfl : '(' = c := by simpa [Piece.tokens] using hc
        rfl
      · obtain rfl : ')' = c := by simpa [Piece.tokens, List.getLast?_cons] using hc
        rfl
    rw [fixity?_of_isReserved hr]
    exact (Option.some_ne_none f).symm

theorem descendOperand_of_isOperand
    (ih : ∀ qs u, .group qs ∈ ps → σ.termOf qs = some u →
      σ.descendFormula (Piece.tokensList qs) = some u)
    (h : σ.IsOperand ps t) : σ.descendOperand (Piece.tokensList ps) = some t := by
  obtain ⟨bs, p, u, ks, rfl, hp, hbs, hks, rfl⟩ := h
  have hcore : σ.descendOperand p.tokens = some u := by
    cases hp with
    | atom hc => exact descendOperand_atom hc
    | group ht =>
      obtain ⟨f, hf, rfl, -⟩ := Formula.exists_of_termOf ht
      rw [Piece.tokens, descendOperand_group (encloses_group (Formula.isProper_pieces hf))]
      exact ih _ _ (by simp) ht
  have hjs : ∀ c ∈ ks.reverse, σ.fixity? c = some .behind :=
    fun c hc => hks c (List.mem_reverse.mp hc)
  have htokens : Piece.tokensList (bs.map .token ++ p :: ks.map .token) =
      bs ++ p.tokens ++ ks.reverse.reverse := by
    simp [Piece.tokensList_append, Piece.tokensList, tokensList_tokens]
  rw [htokens]
  exact descendOperand_around hcore (fun c hc => hp.not_isUnary (.inl hc) rfl)
    (fun c hc => hp.not_isUnary (.inr hc) rfl) hbs hjs

/-- Two operands with a binary operator between them are split there. -/
theorem splitPlace?_pair {l r : Operand} (h : (Formula.pair l op r).Valid σ) :
    σ.splitPlace? 0 0 none (Formula.pair l op r).tokens = some l.tokens.length := by
  obtain ⟨hl, ho, hr⟩ := h
  have hfront := Piece.splitPlace?_tokensList (Operand.isProper_pieces hl) 0
    (fun _ => Operand.not_between_of_mem hl) 0 none (op :: r.tokens)
  have hback := Piece.splitPlace?_tokensList (Operand.isProper_pieces hr) 0
    (fun _ => Operand.not_between_of_mem hr) (l.tokens.length + 1) (some l.tokens.length) []
  have hp := isProper_token_of_fixity? ho
  simp only [Piece.isProper, Bool.and_eq_true, bne_iff_ne] at hp
  simp only [Operand.tokensList_pieces, List.append_nil, Int.ofNat_zero] at hfront hback
  rw [Formula.tokens, hfront]
  simp [splitPlace?, hp.1, hp.2, ho, hback]

/-- They are no operand themselves. -/
theorem descendOperand_pair {l r : Operand} (h : (Formula.pair l op r).Valid σ) :
    σ.descendOperand (Formula.pair l op r).tokens = none := by
  cases ht : σ.descendOperand (Formula.pair l op r).tokens with
  | none => rfl
  | some t =>
    obtain ⟨d, hd, hw, -⟩ := Operand.exists_of_descend ht
    have hp := Formula.pieces_eq_of_tokens_eq (f := .single d) hd h hw
    exact absurd hp (Formula.single_pieces_ne_pair hd h)

theorem descendFormula_pair {l r : Operand} (h : (Formula.pair l op r).Valid σ)
    (hl : σ.descendOperand l.tokens = some t) (hr : σ.descendOperand r.tokens = some u) :
    σ.descendFormula (Formula.pair l op r).tokens = some (.node op [t, u]) := by
  rw [descendFormula, descendOperand_pair h, splitPlace?_pair h]
  simp [Formula.tokens, hl, hr]

/-- Where pieces stand for a term, their tokens are taken apart to that term. -/
theorem descendFormula_of_termOf {ps : List Piece} {t : Term} (h : σ.termOf ps = some t) :
    σ.descendFormula (Piece.tokensList ps) = some t := by
  have ih : ∀ qs u, .group qs ∈ ps → σ.termOf qs = some u →
      σ.descendFormula (Piece.tokensList qs) = some u :=
    fun qs u hq hqu => descendFormula_of_termOf hqu
  rcases termOf_cases h with h | ⟨ps₁, op, ps₂, t₁, t₂, rfl, ho, h₁, h₂, rfl⟩
  · rw [descendFormula, descendOperand_of_isOperand ih h]
  · have hl := descendOperand_of_isOperand (fun qs u hq => ih qs u (by simp [hq])) h₁
    have hr := descendOperand_of_isOperand (fun qs u hq => ih qs u (by simp [hq])) h₂
    obtain ⟨l, hlv, rfl, -⟩ :=
      Operand.exists_of_isOperand (fun _ _ _ => Formula.exists_of_termOf) h₁
    obtain ⟨r, hrv, rfl, -⟩ :=
      Operand.exists_of_isOperand (fun _ _ _ => Formula.exists_of_termOf) h₂
    have hw : Piece.tokensList (l.pieces ++ .token op :: r.pieces) = (Formula.pair l op r).tokens :=
      (Formula.pair l op r).tokensList_pieces
    rw [Operand.tokensList_pieces] at hl hr
    rw [hw]
    exact descendFormula_pair ⟨hlv, ho, hrv⟩ hl hr
termination_by sizeOf ps
decreasing_by
  have hs := List.sizeOf_lt_of_mem hq
  simp only [Piece.group.sizeOf_spec] at hs
  omega

/-- In parentheses a formula is no atom and no operator stands outside of it. -/
theorem descendFormula_of_parentheses (h : σ.descendOperand ('(' :: w ++ [')']) = some t) :
    σ.descendFormula w = some t := by
  rcases descendOperand_cases h with ⟨c, hc, -⟩ | ⟨op, v, u, hv, ho, -⟩ | ⟨op, v, u, hv, ho, -⟩ |
    ⟨v, hv, hf⟩
  · simp at hc
  · obtain rfl : '(' = op := (List.cons.inj hv).1
    rw [fixity?_of_isReserved rfl] at ho
    cases ho
  · obtain rfl : ')' = op := by simpa [List.getLast?_cons] using congrArg List.getLast? hv
    rw [fixity?_of_isReserved rfl] at ho
    cases ho
  · obtain rfl : w = v := by simpa using hv
    exact hf

theorem descendOperand_parentheses (σ : Signature) (w : List Char) :
    σ.descendOperand ('(' :: w ++ [')']) = (Piece.nest w).bind σ.termOf := by
  ext t
  rw [Option.bind_eq_some_iff]
  constructor
  · intro h
    have hw := descendFormula_of_parentheses h
    obtain ⟨f, hf, rfl, -⟩ := Formula.exists_of_descend hw
    obtain ⟨u, hu⟩ := Formula.exists_term hf
    have htu := descendFormula_of_termOf hu
    rw [f.tokensList_pieces, hw] at htu
    obtain rfl := Option.some.inj htu
    exact ⟨f.pieces, Formula.nest_tokens hf, hu⟩
  · rintro ⟨ps, hn, ht⟩
    obtain ⟨rfl, hp⟩ := Piece.nest_eq_some_iff.mp hn
    rw [descendOperand_group (encloses_group hp)]
    exact descendFormula_of_termOf ht

/-- The descent reads the same terms as the pieces do, and it reports the same errors. -/
theorem descend_eq_readTokens (σ : Signature) (w : List Char) :
    σ.descend w = σ.readTokens w := by
  have hcheck := checkParentheses_eq 0 ('(' :: w ++ [')'])
  rw [Int.ofNat_zero] at hcheck
  rw [descend, readTokens, hcheck, descendOperand_parentheses]
  cases parenthesisFault? 0 ('(' :: w ++ [')']) with
  | some e => rfl
  | none => cases (Piece.nest w).bind σ.termOf <;> rfl

theorem read_eq_descend (σ : Signature) (formula : String) :
    σ.read formula = (σ.tokens formula).bind σ.descend := by
  rw [funext σ.descend_eq_readTokens]
  rfl

end Signature

end Equational
