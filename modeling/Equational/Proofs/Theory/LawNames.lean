import Equational.Library

namespace Equational

namespace Text

theorem flatten_words (cs : List Char) : (words cs).flatten = squeeze cs := by
  induction cs with
  | nil => rfl
  | cons c cs ih =>
    simp only [words]
    split
    · next hc =>
      rw [ih, squeeze, squeeze, List.filter_cons_of_neg (by simp [hc])]
    · next hc =>
      rw [squeeze, List.filter_cons_of_pos (by simp [hc]), ← squeeze, ← ih]
      split
      · next d ds w ws hw =>
        rw [hw]
        split <;> rfl
      · rfl

/-- Small letters are found for one character at a time, and an underscore is its own. -/
theorem count_underscore_lowerBehind (before cs : List Char) :
    cs.count '_' ≤ (lowerBehind before cs).count '_' := by
  induction cs generalizing before with
  | nil => exact Nat.le_refl 0
  | cons c cs ih =>
    rw [lowerBehind, List.count_append]
    by_cases hc : c = '_'
    · have hkept : lowerIn caseRuns '_' = '_' := by decide
      have htail := ih ('_' :: before)
      rw [hc, List.count_cons_self]
      simp only [Char.reduceEq, if_false, hkept, List.count_singleton_self]
      omega
    · have htail := ih (c :: before)
      rw [List.count_cons_of_ne hc]
      omega

theorem count_flatten_le_intercalate (mark : Char) (ws : List (List Char)) :
    ws.flatten.count mark ≤ ([mark].intercalate ws).count mark := by
  induction ws with
  | nil => exact Nat.zero_le _
  | cons w ws ih =>
    cases ws with
    | nil => simp
    | cons w' ws =>
      rw [List.intercalate_cons_cons, List.flatten_cons, List.count_append, List.count_append,
        List.count_append]
      omega

end Text

namespace Law

variable {k l : Law}

theorem ruleName_congr (h : k.name = l.name) (problem : String) :
    k.ruleName problem = l.ruleName problem := by
  rw [ruleName, ruleName, h]

theorem isPrefix_ruleName (l : Law) (problem : String) :
    "custom_".toList <+: (l.ruleName problem).toList := by
  rw [ruleName, String.append_assoc, String.append_assoc, String.toList_append]
  exact List.prefix_append _ _

/-- The rule name has more underscores than the name of the law. -/
theorem ruleName_ne_name (l : Law) (problem : String) : l.ruleName problem ≠ l.name := by
  intro h
  have hlower := Text.count_underscore_lowerBehind []
    (['_'].intercalate (Text.words l.name.toList))
  have hwords := Text.count_flatten_le_intercalate '_' (Text.words l.name.toList)
  have hsqueeze : (Text.squeeze l.name.toList).count '_' = l.name.toList.count '_' :=
    List.count_filter (by decide)
  have hcount := congrArg (fun name => name.toList.count '_') h
  rw [Text.flatten_words, hsqueeze] at hwords
  have hcustom : "custom_".toList.count '_' = 1 := by decide
  simp only [ruleName, Text.lower, String.toList_append, String.toList_ofList, List.count_append,
    hcustom] at hcount
  omega

end Law

/-- No shipped rule has a name that a law can be given. -/
theorem Library.name_ne_ruleName_of_shipped {p : Presentation} (hp : p ∈ shipped) {r : Rule}
    (hr : r ∈ p.rules) (l : Law) (problem : String) : r.name ≠ l.ruleName problem := by
  have hnone : ∀ p ∈ shipped, ∀ r ∈ p.rules, ¬ "custom_".toList <+: r.name.toList := by decide
  intro h
  apply hnone p hp r hr
  rw [h]
  exact l.isPrefix_ruleName problem

end Equational
