import Equational.Proofs.Except
import Equational.Proofs.Text.Scanning
import Equational.Script.Command

namespace Equational

open Text

variable {cs : List Char} {k : Keyword} {c : Command}

namespace Keyword

theorem eq_of_prefix {j k : Keyword} (h : j.text.toList <+: k.text.toList) : j = k := by
  cases j <;> cases k <;> first | rfl | exact absurd h (by decide)

theorem prefix_of_front? (h : front? cs = some k) : k.text.toList <+: cs := by
  have hp := List.find?_some h
  exact List.isPrefixOf_iff_prefix.mp hp

theorem front?_eq_some_iff : front? cs = some k ↔ k.text.toList <+: cs := by
  refine ⟨prefix_of_front?, fun h => ?_⟩
  have hs : (front? cs).isSome := by
    rw [front?, List.find?_isSome]
    exact ⟨k, by cases k <;> decide, List.isPrefixOf_iff_prefix.mpr h⟩
  obtain ⟨j, hj⟩ := Option.isSome_iff_exists.mp hs
  -- no keyword begins with another one, so the text begins with one of them at most
  rcases List.prefix_or_prefix_of_prefix (prefix_of_front? hj) h with hp | hp
  · rw [hj, eq_of_prefix hp]
  · rw [hj, eq_of_prefix hp]

end Keyword

namespace Command

/-- The texts on both sides of an equality sign give the two sides of an equation. -/
structure Sides (l r : List Char) : Prop where
  left_free : '=' ∉ l
  right_free : '=' ∉ r
  left : isBlankText l = false
  right : isBlankText r = false

/-- What may stand behind a keyword and the gap that follows it, and the command that it gives. -/
inductive Body : Keyword → List Char → Command → Prop
  | theory {name : List Char} (hne : name ≠ []) (hn : ∀ c ∈ name, isBlank c = false) :
    Body .theory name (.theory (String.ofList name))
  | law {name l r : List Char} (hc : ':' ∉ name) (hn : isBlankText name = false)
    (hs : Sides l r) :
    Body .law (name ++ ':' :: (l ++ '=' :: r)) (.law ⟨part name, none, part l, part r, none⟩)
  | prove {l r : List Char} (hs : Sides l r) :
    Body .prove (l ++ '=' :: r) (.prove (part l) (part r))
  | step {name gap expression : List Char} (hne : name ≠ []) (hn : ∀ c ∈ name, isRuleChar c)
    (hg : ∀ c ∈ gap, isGap c) (he : isBlankText expression = false) :
    Body .step (name ++ (gap ++ ':' :: expression))
      (.step (String.ofList name) (part expression))

theorem isBlank_of_isGap {d : Char} (h : isGap d) : isBlank d := by
  rcases (by simpa [isGap] using h : d = ' ' ∨ d = '\t') with rfl | rfl <;> decide

/-- The name in a step ends where the gap or the colon begins. -/
theorem isRuleChar_head? {gap expression : List Char} (hg : ∀ d ∈ gap, isGap d) :
    ∀ d ∈ (gap ++ ':' :: expression).head?, isRuleChar d = false := by
  cases gap with
  | nil => simp [isRuleChar]
  | cons d gap => simp [isRuleChar, isBlank_of_isGap (hg d (by simp))]

theorem readTheory_eq_ok_iff : readTheory cs = .ok c ↔ Body .theory cs c := by
  constructor
  · intro h
    rw [readTheory] at h
    split at h
    · cases h
    · next d name ht hd =>
      obtain ⟨rfl, hn, -⟩ := takeWhile_dropWhile_iff.mp ⟨ht, hd⟩
      cases h
      rw [List.append_nil]
      exact .theory (List.cons_ne_nil d name) (by simpa using hn)
    · cases h
  · intro h
    cases h with
    | theory hne hn =>
      obtain ⟨ht, hd⟩ := (takeWhile_dropWhile_iff (p := (!isBlank ·)) (r := [])).mpr
        ⟨(List.append_nil cs).symm, by simpa using hn, by simp⟩
      rw [readTheory, ht, hd]
      cases cs with
      | nil => exact absurd rfl hne
      | cons d name => rfl

theorem readEquation_eq_ok_iff {s : String × String} :
    readEquation k cs = .ok s ↔
      ∃ l r, cs = l ++ '=' :: r ∧ Sides l r ∧ (part l, part r) = s := by
  constructor
  · intro h
    rw [readEquation] at h
    split at h
    · cases h
    · next l r hc =>
      obtain ⟨hcs, hl⟩ := cut_eq_some_iff.mp hc
      split at h
      · cases h
      · next hbl =>
        split at h
        · cases h
        · next hbr =>
          rw [Bool.or_eq_true, not_or, Bool.not_eq_true, List.contains_iff_mem] at hbr
          refine ⟨l, r, hcs, ⟨hl, hbr.2, by simpa using hbl, hbr.1⟩, ?_⟩
          injection h
  · rintro ⟨l, r, hcs, hs, rfl⟩
    rw [readEquation, cut_eq_some_iff.mpr ⟨hcs, hs.left_free⟩]
    simp [hs.left, hs.right, hs.right_free]

theorem readLaw_eq_ok_iff : readLaw cs = .ok c ↔ Body .law cs c := by
  constructor
  · intro h
    rw [readLaw] at h
    split at h
    · cases h
    · next name rest hc =>
      obtain ⟨rfl, hf⟩ := cut_eq_some_iff.mp hc
      split at h
      · cases h
      · next hn =>
        obtain ⟨s, he, rfl⟩ := map_eq_ok_iff.mp h
        obtain ⟨l, r, rfl, hs, rfl⟩ := readEquation_eq_ok_iff.mp he
        exact .law hf (by simpa using hn) hs
  · intro h
    cases h with
    | law hf hn hs =>
      rw [readLaw, cut_eq_some_iff.mpr ⟨rfl, hf⟩]
      simp only [hn, Bool.false_eq_true, if_false]
      exact map_eq_ok_iff.mpr ⟨_, readEquation_eq_ok_iff.mpr ⟨_, _, rfl, hs, rfl⟩, rfl⟩

theorem readProve_eq_ok_iff : readProve cs = .ok c ↔ Body .prove cs c := by
  rw [readProve, map_eq_ok_iff]
  constructor
  · rintro ⟨s, he, rfl⟩
    obtain ⟨l, r, rfl, hs, rfl⟩ := readEquation_eq_ok_iff.mp he
    exact .prove hs
  · intro h
    cases h with
    | prove hs => exact ⟨_, readEquation_eq_ok_iff.mpr ⟨_, _, rfl, hs, rfl⟩, rfl⟩

theorem readStep_eq_ok_iff : readStep cs = .ok c ↔ Body .step cs c := by
  constructor
  · intro h
    rw [readStep] at h
    split at h
    · cases h
    · next d name expression ht hd =>
      obtain ⟨hcs, hn, -⟩ := takeWhile_dropWhile_iff.mp ⟨ht, rfl⟩
      obtain ⟨hr, hg, -⟩ := takeWhile_dropWhile_iff.mp ⟨rfl, hd⟩
      split at h
      · cases h
      · next he =>
        cases h
        rw [hcs, hr]
        exact .step (List.cons_ne_nil d name) hn hg (by simpa using he)
    · cases h
  · intro h
    cases h with
    | @step name gap expression hne hn hg he =>
      obtain ⟨ht, hr⟩ := takeWhile_dropWhile_iff.mpr ⟨rfl, hn, isRuleChar_head? hg⟩
      obtain ⟨-, hd⟩ := takeWhile_dropWhile_iff.mpr
        ⟨rfl, hg, show ∀ d ∈ (':' :: expression).head?, isGap d = false by simp [isGap]⟩
      rw [readStep, ht, hr, hd]
      cases name with
      | nil => exact absurd rfl hne
      | cons d name => simp [he]

theorem readBody_eq_ok_iff : readBody k cs = .ok c ↔ Body k cs c := by
  cases k with
  | theory => exact readTheory_eq_ok_iff
  | law => exact readLaw_eq_ok_iff
  | prove => exact readProve_eq_ok_iff
  | step => exact readStep_eq_ok_iff

/-- The text is a keyword, a gap and a body that gives the command. -/
def Spells (cs : List Char) (c : Command) : Prop :=
  ∃ k gap rest, cs = k.text.toList ++ (gap ++ rest) ∧ gap ≠ [] ∧ (∀ d ∈ gap, isGap d) ∧
    (∀ d ∈ rest.head?, isGap d = false) ∧ Body k rest c

theorem readTrimmed_eq_ok_iff : readTrimmed cs = .ok c ↔ Spells cs c := by
  constructor
  · intro h
    rw [readTrimmed] at h
    split at h
    · cases h
    · next k hk =>
      obtain ⟨rest, rfl⟩ := Keyword.prefix_of_front? hk
      rw [List.drop_left] at h
      obtain ⟨hr, hg, hs⟩ := takeWhile_dropWhile_iff.mp
        (⟨rfl, rfl⟩ : rest.takeWhile isGap = _ ∧ rest.dropWhile isGap = _)
      simp only at h
      split at h
      · next hh =>
        refine ⟨k, _, _, by rw [← hr], ?_, hg, hs, readBody_eq_ok_iff.mp h⟩
        cases rest with
        | nil => simp at hh
        | cons d rest =>
          have hd : isGap d := by simpa using hh
          simp [hd]
      · cases h
  · rintro ⟨k, gap, rest, rfl, hne, hg, hs, hb⟩
    obtain ⟨-, hd⟩ := takeWhile_dropWhile_iff.mpr ⟨rfl, hg, hs⟩
    rw [readTrimmed, Keyword.front?_eq_some_iff.mpr (List.prefix_append _ _)]
    simp only [List.drop_left]
    cases gap with
    | nil => exact absurd rfl hne
    | cons d gap =>
      rw [if_pos (by simpa using hg d (by simp)), hd]
      exact readBody_eq_ok_iff.mpr hb

theorem ofLine_eq_some_iff {line : String} :
    ofLine line = .ok (some c) ↔ Spells (trim line.toList) c := by
  rw [← readTrimmed_eq_ok_iff, ofLine]
  split
  · next ht => simp [ht, readTrimmed, show Keyword.front? [] = none by decide]
  · next d cs ht =>
    rw [ht]
    split
    · -- no keyword begins like a comment
      next hd =>
      subst hd
      rw [readTrimmed, show Keyword.front? ('#' :: cs) = none from rfl]
      simp
    · rw [map_eq_ok_iff]
      simp

theorem ofLine_eq_none_iff {line : String} : ofLine line = .ok none ↔
    trim line.toList = [] ∨ (trim line.toList).head? = some '#' := by
  rw [ofLine]
  cases trim line.toList with
  | nil => simp
  | cons d cs =>
    by_cases hd : d = '#'
    · simp [hd]
    · simp [hd, map_eq_ok_iff]

/-- The text is the keyword, the longest gap behind it, which is not empty, and the body. -/
def Leads (k : Keyword) (body cs : List Char) : Prop :=
  ∃ gap, cs = k.text.toList ++ (gap ++ body) ∧ gap ≠ [] ∧ (∀ d ∈ gap, isGap d) ∧
    ∀ d ∈ body.head?, isGap d = false

theorem spells_iff : Spells cs c ↔ ∃ k body, Leads k body cs ∧ Body k body c := by
  constructor
  · rintro ⟨k, gap, body, hcs, hne, hg, hh, hb⟩
    exact ⟨k, body, ⟨gap, hcs, hne, hg, hh⟩, hb⟩
  · rintro ⟨k, body, ⟨gap, hcs, hne, hg, hh⟩, hb⟩
    exact ⟨k, gap, body, hcs, hne, hg, hh, hb⟩

theorem spells_theory_iff {name : String} : Spells cs (.theory name) ↔
    ∃ n, Leads .theory n cs ∧ n ≠ [] ∧ (∀ d ∈ n, isBlank d = false) ∧ name = String.ofList n := by
  rw [spells_iff]
  constructor
  · rintro ⟨k, body, hl, hb⟩
    cases hb with
    | theory hne hn => exact ⟨body, hl, hne, hn, rfl⟩
  · rintro ⟨n, hl, hne, hn, rfl⟩
    exact ⟨.theory, n, hl, .theory hne hn⟩

theorem spells_law_iff {l : Law} : Spells cs (.law l) ↔
    ∃ name lhs rhs, Leads .law (name ++ ':' :: (lhs ++ '=' :: rhs)) cs ∧ ':' ∉ name ∧
      isBlankText name = false ∧ Sides lhs rhs ∧
      l = ⟨part name, none, part lhs, part rhs, none⟩ := by
  rw [spells_iff]
  constructor
  · rintro ⟨k, body, hl, hb⟩
    cases hb with
    | law hc hn hs => exact ⟨_, _, _, hl, hc, hn, hs, rfl⟩
  · rintro ⟨name, lhs, rhs, hl, hc, hn, hs, rfl⟩
    exact ⟨.law, _, hl, .law hc hn hs⟩

theorem spells_prove_iff {l r : String} : Spells cs (.prove l r) ↔
    ∃ lhs rhs, Leads .prove (lhs ++ '=' :: rhs) cs ∧ Sides lhs rhs ∧ l = part lhs ∧
      r = part rhs := by
  rw [spells_iff]
  constructor
  · rintro ⟨k, body, hl, hb⟩
    cases hb with
    | prove hs => exact ⟨_, _, hl, hs, rfl, rfl⟩
  · rintro ⟨lhs, rhs, hl, hs, rfl, rfl⟩
    exact ⟨.prove, _, hl, .prove hs⟩

theorem spells_step_iff {rule expression : String} : Spells cs (.step rule expression) ↔
    ∃ name gap e, Leads .step (name ++ (gap ++ ':' :: e)) cs ∧ name ≠ [] ∧
      (∀ d ∈ name, d ≠ ':' ∧ isBlank d = false) ∧ (∀ d ∈ gap, isGap d) ∧ isBlankText e = false ∧
      rule = String.ofList name ∧ expression = part e := by
  rw [spells_iff]
  constructor
  · rintro ⟨k, body, hl, hb⟩
    cases hb with
    | step hne hn hg he =>
      exact ⟨_, _, _, hl, hne, fun d hd => by simpa [isRuleChar] using hn d hd, hg, he, rfl, rfl⟩
  · rintro ⟨name, gap, e, hl, hne, hn, hg, he, rfl, rfl⟩
    exact ⟨.step, _, hl, .step hne (fun d hd => by simpa [isRuleChar] using hn d hd) hg he⟩

end Command

end Equational
