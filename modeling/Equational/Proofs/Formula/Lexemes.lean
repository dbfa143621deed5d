import Equational.Proofs.Formula.Spelling

namespace Equational.Signature

variable {σ : Signature}

/-- The symbol is the first of the signature whose text the characters begin with. -/
def FirstAt (σ : Signature) (s : Symbol) (cs : List Char) : Prop :=
  s.text.toList <+: cs ∧
    ∃ earlier later, σ.symbols = earlier ++ s :: later ∧ ∀ r ∈ earlier, ¬ r.text.toList <+: cs

/-- The characters begin with the text of no symbol. -/
def NoneAt (σ : Signature) (cs : List Char) : Prop := ∀ s ∈ σ.symbols, ¬ s.text.toList <+: cs

/-- How characters are taken apart from the left, with the tokens and the stray characters found on
the way. The text of a symbol goes before a letter or a parenthesis, and these before anything else.
-/
inductive Scans (σ : Signature) : (cs tokens stray : List Char) → Prop where
  | nil : Scans σ [] [] []
  | symbol {s : Symbol} {rest tokens stray : List Char}
    (hs : σ.FirstAt s (s.text.toList ++ rest)) (h : Scans σ rest tokens stray) :
    Scans σ (s.text.toList ++ rest) (s.id :: tokens) stray
  | literal {c : Char} {rest tokens stray : List Char} (hn : σ.NoneAt (c :: rest))
    (hc : isLiteral c = true) (h : Scans σ rest tokens stray) :
    Scans σ (c :: rest) (c :: tokens) stray
  | stray {c : Char} {rest tokens stray : List Char} (hn : σ.NoneAt (c :: rest))
    (hc : isLiteral c = false) (h : Scans σ rest tokens stray) :
    Scans σ (c :: rest) tokens (c :: stray)

theorem symbolAt?_eq_some_iff {s : Symbol} {cs : List Char} :
    σ.symbolAt? cs = some s ↔ σ.FirstAt s cs := by
  simp only [symbolAt?, FirstAt, List.find?_eq_some_iff_append, List.isPrefixOf_iff_prefix,
    Bool.not_eq_true', ← Bool.not_eq_true]

theorem symbolAt?_eq_none_iff {cs : List Char} : σ.symbolAt? cs = none ↔ σ.NoneAt cs := by
  simp [symbolAt?, NoneAt]

theorem filterMap_scan_of_scans {cs tokens stray : List Char} (h : σ.Scans cs tokens stray) :
    (σ.scan 0 cs).filterMap Lexeme.token? = tokens ∧
      (σ.scan 0 cs).filterMap Lexeme.stray? = stray := by
  induction h with
  | nil => exact ⟨rfl, rfl⟩
  | @symbol s _ _ _ hs _ ih =>
    rw [scan_of_symbolAt? (symbolAt?_eq_some_iff.mpr hs)]
    exact ⟨congrArg (s.id :: ·) ih.1, ih.2⟩
  | @literal c _ _ _ hn hc _ ih =>
    rw [scan_of_symbolAt?_eq_none (symbolAt?_eq_none_iff.mpr hn), if_pos hc]
    exact ⟨congrArg (c :: ·) ih.1, ih.2⟩
  | @stray c _ _ _ hn hc _ ih =>
    rw [scan_of_symbolAt?_eq_none (symbolAt?_eq_none_iff.mpr hn), if_neg (by simp [hc])]
    exact ⟨ih.1, congrArg (c :: ·) ih.2⟩

/-- Any characters can be taken apart. -/
theorem scans_scan (σ : Signature) (cs : List Char) :
    σ.Scans cs ((σ.scan 0 cs).filterMap Lexeme.token?)
      ((σ.scan 0 cs).filterMap Lexeme.stray?) := by
  match cs with
  | [] => exact .nil
  | c :: cs =>
    cases hs : σ.symbolAt? (c :: cs) with
    | none =>
      have hn := symbolAt?_eq_none_iff.mp hs
      have ih := scans_scan σ cs
      rw [scan_of_symbolAt?_eq_none hs]
      by_cases hc : isLiteral c = true
      · rw [if_pos hc]
        exact .literal hn hc ih
      · rw [if_neg hc]
        exact .stray hn (by simpa using hc) ih
    | some s =>
      have hf := symbolAt?_eq_some_iff.mp hs
      obtain ⟨rest, hrest⟩ := hf.1
      obtain ⟨a, as, ha, -⟩ := text_of_mem (List.mem_of_find?_eq_some hs)
      have hlength : rest.length < (c :: cs).length := by
        rw [← hrest, ha, List.length_append, List.length_cons]
        omega
      have ih := scans_scan σ rest
      rw [← hrest] at hs hf ⊢
      rw [scan_of_symbolAt? hs]
      exact .symbol hf ih
termination_by cs.length
decreasing_by
  · exact Nat.lt_succ_self _
  · exact hlength

/-- The tokens of a formula without stray characters. -/
theorem tokens_of_scans {formula : String} {tokens : List Char}
    (h : σ.Scans (Text.squeeze formula.toList) tokens []) : σ.tokens formula = .ok tokens := by
  obtain ⟨htokens, hstray⟩ := filterMap_scan_of_scans h
  rw [Signature.tokens, lexemes, htokens, hstray]

theorem tokens_of_scans_stray {formula : String} {tokens stray : List Char}
    (h : σ.Scans (Text.squeeze formula.toList) tokens stray) (hne : stray ≠ []) :
    σ.tokens formula = .error (.unexpected stray) := by
  obtain ⟨-, hstray⟩ := filterMap_scan_of_scans h
  obtain ⟨c, cs, rfl⟩ := List.exists_cons_of_ne_nil hne
  rw [Signature.tokens, lexemes, hstray]

end Equational.Signature
