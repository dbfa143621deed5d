import Equational.Proofs.Formula.Printing
import Equational.Proofs.Formula.Unambiguous
import Equational.Proofs.Theory.Shipped

namespace Equational.Signature

variable {σ : Signature} {style : Style}

/-- The symbols of a list can be told apart in a style, from each other and from letters and
parentheses, wherever a text goes on with one of them. -/
structure Legible (symbols : List Symbol) (style : Style) : Prop where
  ne_nil : ∀ s ∈ symbols, (s.form style).toList ≠ []
  unblanked : ∀ s ∈ symbols, ∀ c ∈ (s.form style).toList, Text.isBlank c = false
  head_free : ∀ s ∈ symbols, ∀ c ∈ (s.form style).toList.head?, isLiteral c = false
  prefix_free : ∀ s ∈ symbols, ∀ t ∈ symbols, s ≠ t →
    ¬ (s.form style).toList <+: (t.form style).toList

-- the characters of a form are run through as a list, never the type of characters
instance (symbols : List Symbol) (style : Style) : Decidable (Legible symbols style) :=
  decidable_of_iff
    ((∀ s ∈ symbols, (s.form style).toList ≠ []) ∧
      (∀ s ∈ symbols, (s.form style).toList.all (!Text.isBlank ·) = true) ∧
      (∀ s ∈ symbols, (s.form style).toList.head?.all (!isLiteral ·) = true) ∧
      ∀ s ∈ symbols, ∀ t ∈ symbols, s ≠ t → ¬ (s.form style).toList <+: (t.form style).toList)
    (by
      simp only [List.all_eq_true, Option.all_eq_true, Bool.not_eq_true']
      exact ⟨fun ⟨hne, hblank, hhead, hprefix⟩ => ⟨hne, hblank, hhead, hprefix⟩,
        fun h => ⟨h.ne_nil, h.unblanked, h.head_free, h.prefix_free⟩⟩)

/-- A form that starts with a letter or a parenthesis is no form of a symbol. -/
theorem Legible.not_prefix_of_isLiteral (h : Legible σ.symbols style) {s : Symbol}
    (hs : s ∈ σ.symbols) {c : Char} (hc : isLiteral c = true) :
    ¬ [c] <+: (s.form style).toList := by
  intro hp
  obtain ⟨cs, hcs⟩ := hp
  have hfree := h.head_free s hs c (by rw [← hcs]; rfl)
  rw [hc] at hfree
  cases hfree

theorem Legible.spell_ne_nil (h : Legible σ.symbols style) {c : Char} (hc : σ.IsToken c) :
    σ.spell style c ≠ [] := by
  rcases hc with hc | ⟨s, hs, rfl⟩
  · rw [spell_of_isLiteral hc]
    exact List.cons_ne_nil c []
  · rw [spell_of_mem hs]
    exact h.ne_nil s hs

/-- No token is written with the beginning of another one. -/
theorem Legible.eq_of_spell_prefix (h : Legible σ.symbols style) {c d : Char} (hc : σ.IsToken c)
    (hd : σ.IsToken d) (hp : σ.spell style c <+: σ.spell style d) : c = d := by
  rcases hc with hc | ⟨s, hs, rfl⟩
  · rw [spell_of_isLiteral hc] at hp
    rcases hd with hd | ⟨s, hs, rfl⟩
    · rw [spell_of_isLiteral hd] at hp
      exact (List.cons_prefix_cons.mp hp).1
    · rw [spell_of_mem hs] at hp
      exact absurd hp (h.not_prefix_of_isLiteral hs hc)
  · rw [spell_of_mem hs] at hp
    rcases hd with hd | ⟨t, ht, rfl⟩
    · -- a form that is not empty and begins a single character is that character
      rw [spell_of_isLiteral hd] at hp
      rcases List.prefix_cons_iff.mp hp with hnil | ⟨cs, hcs, -⟩
      · exact absurd hnil (h.ne_nil s hs)
      · have hd' : [d] <+: (s.form style).toList := ⟨cs, hcs.symm⟩
        exact absurd hd' (h.not_prefix_of_isLiteral hs hd)
    · rw [spell_of_mem ht] at hp
      by_cases hst : s = t
      · rw [hst]
      · exact absurd hp (h.prefix_free s hs t ht hst)

/-- Tokens are found again in what is written with them. -/
theorem Legible.eq_of_flatMap_spell_eq (h : Legible σ.symbols style) {v w : List Char}
    (hv : ∀ c ∈ v, σ.IsToken c) (hw : ∀ c ∈ w, σ.IsToken c)
    (he : v.flatMap (σ.spell style) = w.flatMap (σ.spell style)) : v = w := by
  induction v generalizing w with
  | nil =>
    cases w with
    | nil => rfl
    | cons d w =>
      have hnil : σ.spell style d = [] := (List.append_eq_nil_iff.mp he.symm).1
      exact absurd hnil (h.spell_ne_nil (hw d (by simp)))
  | cons c v ih =>
    cases w with
    | nil =>
      have hnil : σ.spell style c = [] := (List.append_eq_nil_iff.mp he).1
      exact absurd hnil (h.spell_ne_nil (hv c (by simp)))
    | cons d w =>
      rw [List.flatMap_cons, List.flatMap_cons] at he
      have hc : σ.spell style c <+: σ.spell style d ++ w.flatMap (σ.spell style) := ⟨_, he⟩
      have hd : σ.spell style d <+: σ.spell style d ++ w.flatMap (σ.spell style) :=
        List.prefix_append _ _
      have hcd : c = d := by
        rcases List.prefix_or_prefix_of_prefix hc hd with hp | hp
        · exact h.eq_of_spell_prefix (hv c (by simp)) (hw d (by simp)) hp
        · exact (h.eq_of_spell_prefix (hw d (by simp)) (hv c (by simp)) hp).symm
      subst hcd
      rw [ih (fun a ha => hv a (by simp [ha])) (fun a ha => hw a (by simp [ha]))
        (List.append_cancel_left he)]

theorem Legible.derivation_eq_of_render_eq (h : Legible σ.symbols style) {t u : Term}
    (ht : σ.Builds t) (hu : σ.Builds u) (he : σ.render style t = σ.render style u) :
    (σ.derivation t).tokens = (σ.derivation u).tokens := by
  have hspelled : (σ.derivation t).tokens.flatMap (σ.spell style) =
      (σ.derivation u).tokens.flatMap (σ.spell style) := by
    calc
      _ = Text.squeeze (σ.render style t).toList := (squeeze_write h.unblanked ht).symm
      _ = Text.squeeze (σ.render style u).toList := by rw [he]
      _ = _ := squeeze_write h.unblanked hu
  exact h.eq_of_flatMap_spell_eq (isToken_of_mem (derivation_valid ht))
    (isToken_of_mem (derivation_valid hu)) hspelled

/-- Without unary operators of both kinds the tokens tell the term. -/
theorem Legible.eq_of_render_eq (h : Legible σ.symbols style) (hσ : ¬ σ.MixesUnary) {t u : Term}
    (ht : σ.wellFormed t = true) (hu : σ.wellFormed u = true)
    (he : σ.render style t = σ.render style u) : t = u := by
  have htb : σ.Builds t := builds_of_wellFormed ht
  have hub : σ.Builds u := builds_of_wellFormed hu
  have hd : σ.derivation t = σ.derivation u :=
    Formula.eq_of_tokens_eq hσ (derivation_valid htb) (derivation_valid hub)
      (h.derivation_eq_of_render_eq htb hub he)
  calc
    t = (σ.derivation t).term := (derivation_term htb).symm
    _ = (σ.derivation u).term := by rw [hd]
    _ = u := derivation_term hub

/-- The symbols of every shipped theory are legible in every style. -/
theorem legible_of_shipped (style : Style) : ∀ p ∈ Library.shipped, Legible p.symbols style := by
  cases style <;> decide +kernel

/-- Two well-formed terms that are written alike in a style are equal, if the style is legible and
there are no unary operators of both kinds. In the shipped theories that holds in every style. -/
theorem render_tells_apart :
    (∀ (σ : Signature) (style : Style), ¬ σ.MixesUnary → Legible σ.symbols style →
      ∀ t u, σ.wellFormed t = true → σ.wellFormed u = true →
        σ.render style t = σ.render style u → t = u) ∧
    ∀ p ∈ Library.shipped, ∃ θ, Theory.ofPresentation p = .ok θ ∧ ¬ θ.signature.MixesUnary ∧
      ∀ style, Legible θ.signature.symbols style ∧
        ∀ t u, θ.signature.wellFormed t = true → θ.signature.wellFormed u = true →
          θ.signature.render style t = θ.signature.render style u → t = u := by
  constructor
  · intro σ style hσ h t u ht hu he
    exact h.eq_of_render_eq hσ ht hu he
  · intro p hp
    have hl := Library.lawful_of_shipped p hp
    have hm : ¬ (Theory.ofLawful p hl).signature.MixesUnary :=
      Library.not_mixesUnary_of_shipped p hp
    refine ⟨_, Theory.ofPresentation_of_lawful hl, hm, fun style => ?_⟩
    have h : Legible (Theory.ofLawful p hl).signature.symbols style := legible_of_shipped style p hp
    exact ⟨h, fun t u ht hu he => h.eq_of_render_eq hm ht hu he⟩

/-- In LaTeX a negated letter is kept apart from the command before it. The blank tells nothing. -/
theorem render_tells_apart_of_negation :
    let σ : Signature := ⟨Presentation.propositions.symbols, .plain, by decide⟩
    ¬ σ.MixesUnary ∧ Legible σ.symbols .latex ∧
      (∃ t u, σ.read "(¬((p)))" = .ok t ∧ σ.read "¬p" = .ok u ∧
        σ.render .latex t = "\\neg p" ∧ σ.render .latex u = "\\neg p" ∧ t = u) ∧
      σ.render .latex (.node '|' [.node '!' [.leaf 'p'], .leaf 'q']) ≠
        σ.render .latex (.node '!' [.node '|' [.leaf 'p', .leaf 'q']]) := by
  intro σ
  have hm : ¬ σ.MixesUnary :=
    Library.not_mixesUnary_of_shipped .propositions (by simp [Library.shipped])
  have h : Legible σ.symbols .latex :=
    legible_of_shipped .latex .propositions (by simp [Library.shipped])
  have htold := render_tells_apart.1 σ .latex hm h
  refine ⟨hm, h, ?_, fun he => ?_⟩
  · have hword : σ.render .latex (.node '!' [.leaf 'p']) = "\\neg p" := by decide
    exact ⟨_, _, rfl, rfl, hword, hword, htold _ _ (by decide) (by decide) (hword.trans hword.symm)⟩
  · have hsame := htold _ _ (by decide) (by decide) he
    revert hsame
    decide

end Equational.Signature
