import Equational.Proofs.Script.LineGrammar

namespace Equational.Command

open Text

variable {cs : List Char} {mark : Char} {s : String} {k : Keyword} {c : Command}

/-- The text is not empty and has no white space at its ends. -/
def Trimmed (s : String) : Prop := s ≠ "" ∧ trim s.toList = s.toList

/-- The text is trimmed and the mark does not occur in it, so a line can be cut at the mark. -/
def Free (mark : Char) (s : String) : Prop := Trimmed s ∧ mark ∉ s.toList

/-- The commands that a line can hold. A law has neither a wording nor a theory of its own there. -/
def Canonical : Command → Prop
  | theory name => name ≠ "" ∧ ∀ d ∈ name.toList, isBlank d = false
  | law l => Free ':' l.name ∧ Free '=' l.lhs ∧ Free '=' l.rhs ∧ l.text = none ∧ l.theory = none
  | prove lhs rhs => Free '=' lhs ∧ Free '=' rhs
  | step rule expression =>
    (rule ≠ "" ∧ ∀ d ∈ rule.toList, d ≠ ':' ∧ isBlank d = false) ∧ Trimmed expression

instance (s : String) : Decidable (Trimmed s) := inferInstanceAs (Decidable (_ ∧ _))

instance (mark : Char) (s : String) : Decidable (Free mark s) := inferInstanceAs (Decidable (_ ∧ _))

instance : DecidablePred Canonical
  | theory _ => inferInstanceAs (Decidable (_ ∧ _))
  | law _ => inferInstanceAs (Decidable (_ ∧ _))
  | prove _ _ => inferInstanceAs (Decidable (_ ∧ _))
  | step _ _ => inferInstanceAs (Decidable (_ ∧ _))

theorem trimmed_part (h : isBlankText cs = false) : Trimmed (part cs) := by
  refine ⟨fun hp => ?_, ?_⟩
  · -- only of white space is nothing left
    have hn : trim cs = [] := by simpa [part] using hp
    rw [trim_eq_nil_iff] at hn
    rw [isBlankText, hn] at h
    cases h
  · rw [part, String.toList_ofList, trim_trim]

theorem free_part (h : isBlankText cs = false) (hm : mark ∉ cs) : Free mark (part cs) := by
  refine ⟨trimmed_part h, fun hp => hm (mem_of_mem_trim ?_)⟩
  rwa [part, String.toList_ofList] at hp

/-- What is read from a line is canonical. -/
theorem Body.canonical (h : Body k cs c) : c.Canonical := by
  cases h with
  | theory hne hn => exact ⟨by simpa using hne, by simpa using hn⟩
  | law hc hn hs =>
    exact ⟨free_part hn hc, free_part hs.left hs.left_free, free_part hs.right hs.right_free,
      rfl, rfl⟩
  | prove hs => exact ⟨free_part hs.left hs.left_free, free_part hs.right hs.right_free⟩
  | step hne hn hg he =>
    refine ⟨⟨by simpa using hne, fun d hd => ?_⟩, trimmed_part he⟩
    rw [String.toList_ofList] at hd
    simpa [isRuleChar] using hn d hd

theorem Trimmed.toList_ne_nil (h : Trimmed s) : s.toList ≠ [] := by simpa using h.1

theorem Trimmed.part_eq (h : Trimmed s) : part s.toList = s := by
  rw [part, h.2, String.ofList_toList]

theorem Trimmed.isBlankText_eq (h : Trimmed s) : isBlankText s.toList = false := by
  rw [isBlankText, Bool.eq_false_iff, ne_eq, ← trim_eq_nil_iff, h.2]
  exact h.toList_ne_nil

theorem Trimmed.head? (h : Trimmed s) : ∀ d ∈ s.toList.head?, isBlank d = false := by
  rw [← h.2]
  exact fun _ => head?_trim

theorem Trimmed.getLast? (h : Trimmed s) : ∀ d ∈ s.toList.getLast?, isBlank d = false := by
  rw [← h.2]
  exact fun _ => getLast?_trim

/-- A text without any white space has none at its ends. -/
theorem trimmed_of_solid (hne : s ≠ "") (h : ∀ d ∈ s.toList, isBlank d = false) : Trimmed s :=
  ⟨hne, trim_eq_self (fun d hd => h d (List.mem_of_head? hd)) fun d hd =>
    h d (List.mem_of_getLast? hd)⟩

/-- The keyword of the line of a command. -/
def keyword : Command → Keyword
  | theory _ => .theory
  | law _ => .law
  | prove _ _ => .prove
  | step _ _ => .step

/-- What the line of a command has behind the keyword and a blank. -/
def body : Command → List Char
  | theory name => name.toList
  | law l => l.name.toList ++ ':' :: (' ' :: l.lhs.toList ++ [' '] ++ '=' :: ' ' :: l.rhs.toList)
  | prove lhs rhs => lhs.toList ++ [' '] ++ '=' :: ' ' :: rhs.toList
  | step rule expression => rule.toList ++ ([] ++ ':' :: ' ' :: expression.toList)

theorem toList_line (c : Command) : c.line.toList = c.keyword.text.toList ++ ' ' :: c.body := by
  cases c <;> simp [line, keyword, body, Keyword.text]

theorem part_cons (cs : List Char) : part (' ' :: cs) = part cs := by
  rw [part, trim_cons (by decide), part]

theorem part_concat (cs : List Char) : part (cs ++ [' ']) = part cs := by
  rw [part, trim_concat (by decide), part]

theorem isBlankText_cons (cs : List Char) : isBlankText (' ' :: cs) = isBlankText cs := rfl

theorem isBlankText_concat (cs : List Char) : isBlankText (cs ++ [' ']) = isBlankText cs := by
  rw [isBlankText, List.all_append, show [' '].all isBlank = true from rfl, Bool.and_true]
  rfl

theorem sides_of_free {l r : String} (hl : Free '=' l) (hr : Free '=' r) :
    Sides (l.toList ++ [' ']) (' ' :: r.toList) where
  left_free := by simpa using hl.2
  right_free := by simpa using hr.2
  left := by rw [isBlankText_concat, hl.1.isBlankText_eq]
  right := by rw [isBlankText_cons, hr.1.isBlankText_eq]

theorem Sides.cons {l r : List Char} (h : Sides l r) : Sides (' ' :: l) r where
  left_free := by simpa using h.left_free
  right_free := h.right_free
  left := by rw [isBlankText_cons, h.left]
  right := h.right

/-- The body of the line of a canonical command gives the command. -/
theorem Canonical.body (h : c.Canonical) : Body c.keyword c.body c := by
  cases c with
  | theory name =>
    have hb := Body.theory (by simpa using h.1) h.2
    rwa [String.ofList_toList] at hb
  | law l =>
    obtain ⟨name, text, lhs, rhs, theory⟩ := l
    obtain ⟨hn, hl, hr, rfl, rfl⟩ := h
    have hb := Body.law hn.2 hn.1.isBlankText_eq (sides_of_free hl hr).cons
    rwa [part_cons, part_concat, part_cons, hn.1.part_eq, hl.1.part_eq, hr.1.part_eq] at hb
  | prove lhs rhs =>
    have hb := Body.prove (sides_of_free h.1 h.2)
    rwa [part_concat, part_cons, h.1.1.part_eq, h.2.1.part_eq] at hb
  | step rule expression =>
    have hne : rule.toList ≠ [] := by simpa using h.1.1
    have hn (d : Char) (hd : d ∈ rule.toList) : isRuleChar d := by
      simpa [isRuleChar] using h.1.2 d hd
    have he : isBlankText (' ' :: expression.toList) = false := by
      rw [isBlankText_cons, h.2.isBlankText_eq]
    have hb := Body.step hne hn (show ∀ d ∈ [], isGap d by simp) he
    rwa [String.ofList_toList, part_cons, h.2.part_eq] at hb

theorem Canonical.begins (h : c.Canonical) : ∃ s cs, c.body = s.toList ++ cs ∧ Trimmed s := by
  cases c with
  | theory name => exact ⟨name, [], (List.append_nil _).symm, trimmed_of_solid h.1 h.2⟩
  | law l => exact ⟨l.name, _, rfl, h.1.1⟩
  | prove lhs rhs => exact ⟨lhs, _, List.append_assoc _ _ _, h.1.1⟩
  | step rule expression =>
    exact ⟨rule, _, rfl, trimmed_of_solid h.1.1 fun d hd => (h.1.2 d hd).2⟩

theorem Canonical.ends (h : c.Canonical) : ∃ cs s, c.body = cs ++ s.toList ∧ Trimmed s := by
  cases c with
  | theory name => exact ⟨[], name, rfl, trimmed_of_solid h.1 h.2⟩
  | law l =>
    exact ⟨l.name.toList ++ ':' :: ' ' :: l.lhs.toList ++ [' ', '=', ' '], l.rhs, by
      simp [Command.body], h.2.2.1.1⟩
  | prove lhs rhs => exact ⟨lhs.toList ++ [' ', '=', ' '], rhs, by simp [Command.body], h.2.1⟩
  | step rule expression =>
    exact ⟨rule.toList ++ [':', ' '], expression, by simp [Command.body], h.2⟩

/-- There is no white space at the ends of the line of a canonical command. -/
theorem Canonical.trim_line (h : c.Canonical) : trim c.line.toList = c.line.toList := by
  refine trim_eq_self ?_ ?_
  · -- the line begins with a letter of its keyword
    rw [toList_line]
    cases c <;> simp [keyword, Keyword.text] <;> decide
  · -- and ends with the last part of its body
    obtain ⟨cs, s, hb, hs⟩ := h.ends
    rw [toList_line, hb, ← List.cons_append, ← List.append_assoc,
      List.getLast?_append_of_ne_nil _ hs.toList_ne_nil]
    exact hs.getLast?

theorem ofLine_line (h : c.Canonical) : ofLine c.line = .ok (some c) := by
  rw [ofLine_eq_some_iff, h.trim_line, toList_line]
  refine ⟨c.keyword, [' '], c.body, rfl, by simp, by simp [isGap], fun d hd => ?_, h.body⟩
  obtain ⟨s, cs, hb, hs⟩ := h.begins
  rw [hb, List.head?_append_of_ne_nil _ hs.toList_ne_nil] at hd
  rw [Bool.eq_false_iff]
  intro hg
  exact Bool.eq_false_iff.mp (hs.head? d hd) (isBlank_of_isGap hg)

/-- A command that some line holds is canonical, and a command is read back from the line that is
written for it exactly if it is canonical. -/
theorem canonical_survives :
    (∀ (line : String) (c : Command), ofLine line = .ok (some c) → c.Canonical) ∧
      ∀ c : Command, ofLine c.line = .ok (some c) ↔ c.Canonical := by
  have hc (line : String) (c : Command) (h : ofLine line = .ok (some c)) : c.Canonical := by
    obtain ⟨k, gap, rest, -, -, -, -, hb⟩ := ofLine_eq_some_iff.mp h
    exact hb.canonical
  exact ⟨hc, fun c => ⟨hc c.line c, ofLine_line⟩⟩

/-- The name of the law holds an equality sign, its left side a colon, and the line more white
space than it has to. -/
theorem canonical_survives_of_law :
    ofLine "\tlaw \ta = b\u00a0:x:y=\u3000z " =
        .ok (some (.law ⟨"a = b", none, "x:y", "z", none⟩)) ∧
      ofLine "law a = b: x:y = z" = .ok (some (.law ⟨"a = b", none, "x:y", "z", none⟩)) := by
  have h : ofLine "\tlaw \ta = b\u00a0:x:y=\u3000z " =
      .ok (some (.law ⟨"a = b", none, "x:y", "z", none⟩)) := by decide +kernel
  exact ⟨h, (canonical_survives.2 _).mpr (canonical_survives.1 _ _ h)⟩

example : ¬ (law ⟨"Absorption", some "absorption", "x ∩ y", "x", none⟩).Canonical := by decide

end Equational.Command
