import Equational.Proofs.Formula.Derivation
import Equational.Proofs.Rewriting.Pattern
import Equational.Formula.Writing

/-! How tokens are spelled in each style, and when they are found again in the text. The texts of a
signature need not be told apart from left to right: an earlier symbol wins. They are if no text is
the beginning of another one. -/

namespace Equational.Signature

variable {σ : Signature}

/-- The text of no symbol is the beginning of the text of another one. -/
def PrefixFree (σ : Signature) : Prop :=
  ∀ s ∈ σ.symbols, ∀ t ∈ σ.symbols, s ≠ t → ¬ s.text.toList <+: t.text.toList

/-- The characters that a token is written with. -/
def spell (σ : Signature) (style : Style) (c : Char) : List Char := (σ.writeHead style c).toList

/-- Letters and parentheses are tokens that stand for themselves. -/
def isLiteral (c : Char) : Bool := Term.isLetter c || c == '(' || c == ')'

def IsToken (σ : Signature) (c : Char) : Prop := isLiteral c = true ∨ ∃ s ∈ σ.symbols, s.id = c

theorem isReserved_of_isLiteral {c : Char} (h : isLiteral c = true) : isReserved c = true := by
  rw [isLiteral] at h
  rw [isReserved, h, Bool.true_or]

theorem not_isBlank_of_isLiteral {c : Char} (h : isLiteral c = true) : Text.isBlank c = false := by
  have hn : (65 ≤ c.toNat ∧ c.toNat ≤ 90) ∨ (97 ≤ c.toNat ∧ c.toNat ≤ 122) ∨
      c.toNat = 40 ∨ c.toNat = 41 := by
    simp only [isLiteral, Bool.or_eq_true, beq_iff_eq, Term.isLetter_iff] at h
    rcases h with ((h | h) | rfl) | rfl
    · exact .inl (Term.toNat_of_isUpper h)
    · exact .inr (.inl (Term.toNat_of_isLower h))
    · exact .inr (.inr (.inl rfl))
    · exact .inr (.inr (.inr rfl))
  simp only [Text.isBlank, Text.Ranges.contains, Text.blankRanges]
  simp
  omega

theorem spell_of_mem {s : Symbol} (h : s ∈ σ.symbols) (style : Style) :
    σ.spell style s.id = (s.form style).toList := by
  have hr := σ.lawful.id_free s h
  simp only [isReserved, Bool.or_eq_false_iff] at hr
  rw [spell, writeHead, hr.1.1.1, byId?_of_mem h]
  rfl

theorem spell_of_isLiteral {c : Char} (h : isLiteral c = true) (style : Style) :
    σ.spell style c = [c] := by
  have hf : σ.fixity? c = none := fixity?_of_isReserved (isReserved_of_isLiteral h)
  have hn : σ.byId? c = none := by rwa [fixity?, Option.map_eq_none_iff] at hf
  rw [spell, writeHead, hn]
  simp

/-- The text of a symbol is not empty and holds nothing reserved. -/
theorem text_of_mem {s : Symbol} (h : s ∈ σ.symbols) :
    ∃ c cs, s.text.toList = c :: cs ∧ ∀ d ∈ c :: cs, isReserved d = false := by
  have ht := σ.lawful.text_free s h
  simp only [isReservedText, Bool.or_eq_false_iff, List.isEmpty_eq_false_iff] at ht
  obtain ⟨c, cs, he⟩ := List.exists_cons_of_ne_nil ht.1
  refine ⟨c, cs, he, fun d hd => ?_⟩
  have hn := List.any_eq_false.mp ht.2 d (he ▸ hd)
  simpa using hn

/-- White space is dropped before the symbols are looked for, and no text has any. -/
theorem not_isBlank_of_mem_text {s : Symbol} (h : s ∈ σ.symbols) :
    ∀ c ∈ (s.form .text).toList, Text.isBlank c = false := by
  obtain ⟨a, as, he, hr⟩ := text_of_mem h
  intro c hc
  have hc' := hr c (he ▸ hc)
  simp only [isReserved, Bool.or_eq_false_iff] at hc'
  exact hc'.2

/-- The symbol whose text comes next is found, whatever follows. -/
theorem symbolAt?_text (hσ : σ.PrefixFree) {s : Symbol} (h : s ∈ σ.symbols) (rest : List Char) :
    σ.symbolAt? (s.text.toList ++ rest) = some s := by
  have hs : s.text.toList.isPrefixOf (s.text.toList ++ rest) = true :=
    List.isPrefixOf_iff_prefix.mpr (List.prefix_append _ _)
  have hsome : (σ.symbolAt? (s.text.toList ++ rest)).isSome = true :=
    List.find?_isSome.mpr ⟨s, h, hs⟩
  obtain ⟨t, ht⟩ := Option.isSome_iff_exists.mp hsome
  have htm : t ∈ σ.symbols := List.mem_of_find?_eq_some ht
  have htp : t.text.toList <+: s.text.toList ++ rest := by
    have hb := List.find?_some ht
    exact List.isPrefixOf_iff_prefix.mp hb
  by_cases hst : t = s
  · rw [ht, hst]
  · rcases List.prefix_or_prefix_of_prefix htp (List.prefix_append _ rest) with hp | hp
    · exact absurd hp (hσ t htm s h hst)
    · exact absurd hp (hσ s h t htm (Ne.symm hst))

theorem symbolAt?_literal {c : Char} (h : isLiteral c = true) (rest : List Char) :
    σ.symbolAt? (c :: rest) = none := by
  apply List.find?_eq_none.mpr
  intro s hs hp
  obtain ⟨a, as, he, hr⟩ := text_of_mem hs
  rw [he, List.isPrefixOf_iff_prefix, List.cons_prefix_cons] at hp
  have ha := hr a (by simp)
  rw [hp.1, isReserved_of_isLiteral h] at ha
  cases ha

/-- Characters that belong to the lexeme before are passed over. -/
theorem scan_append (cs rest : List Char) : σ.scan cs.length (cs ++ rest) = σ.scan 0 rest := by
  induction cs with
  | nil => rfl
  | cons c cs ih => exact ih

theorem scan_of_symbolAt? {s : Symbol} {rest : List Char}
    (h : σ.symbolAt? (s.text.toList ++ rest) = some s) :
    σ.scan 0 (s.text.toList ++ rest) = .token s.id :: σ.scan 0 rest := by
  obtain ⟨a, as, he, -⟩ := text_of_mem (List.mem_of_find?_eq_some h)
  have hl : σ.lexemeAt a (as ++ rest) = (.token s.id, as.length) := by
    rw [he, List.cons_append] at h
    simp [lexemeAt, h, he]
  rw [he, List.cons_append, scan, hl, scan_append]

theorem scan_of_symbolAt?_eq_none {c : Char} {rest : List Char}
    (h : σ.symbolAt? (c :: rest) = none) :
    σ.scan 0 (c :: rest) = (if isLiteral c then .token c else .stray c) :: σ.scan 0 rest := by
  rw [scan, lexemeAt, h]
  rfl

theorem scan_spell (hσ : σ.PrefixFree) {c : Char} (h : σ.IsToken c) (rest : List Char) :
    σ.scan 0 (σ.spell .text c ++ rest) = .token c :: σ.scan 0 rest := by
  rcases h with h | ⟨s, hs, rfl⟩
  · rw [spell_of_isLiteral h, List.singleton_append,
      scan_of_symbolAt?_eq_none (symbolAt?_literal h rest), if_pos h]
  · rw [spell_of_mem hs]
    exact scan_of_symbolAt? (symbolAt?_text hσ hs rest)

/-- Spelled tokens are found again. -/
theorem tokens_of_squeeze (hσ : σ.PrefixFree) {formula : String} {w : List Char}
    (hw : ∀ c ∈ w, σ.IsToken c)
    (h : Text.squeeze formula.toList = w.flatMap (σ.spell .text)) :
    σ.tokens formula = .ok w := by
  have hscan : σ.lexemes formula = w.map .token := by
    rw [lexemes, h]
    clear h
    induction w with
    | nil => rfl
    | cons c cs ih =>
      rw [List.flatMap_cons, scan_spell hσ (hw c (by simp)), ih fun d hd => hw d (by simp [hd])]
      rfl
  have hstray : (w.map Lexeme.token).filterMap Lexeme.stray? = [] := by
    simp [List.filterMap_map, Function.comp_def, Lexeme.stray?]
  have htoken : (w.map Lexeme.token).filterMap Lexeme.token? = w := by
    simp [List.filterMap_map, Function.comp_def, Lexeme.token?]
  rw [tokens, hscan, hstray, htoken]

end Equational.Signature
