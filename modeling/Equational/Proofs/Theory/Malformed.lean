import Equational.Proofs.Except
import Equational.Proofs.Formula.Grammar
import Equational.Proofs.Rewriting.Refusals
import Equational.Proofs.Theory.History

namespace Equational

namespace StepError

/-- What an error calls malformed, if it does. -/
def malformed? : StepError → Option String
  | malformedTerm t => some ("invalid expression " ++ t.bracketed)
  | malformedRule name => some ("invalid rule " ++ name)
  | _ => none

theorem message_of_malformed? {r : StepError} {detail : String} (h : r.malformed? = some detail) :
    r.message = "Rule validation error: " ++ detail := by
  have hterm : "Rule validation error: invalid expression " =
      "Rule validation error: " ++ "invalid expression " := by decide
  have hrule : "Rule validation error: invalid rule " =
      "Rule validation error: " ++ "invalid rule " := by decide
  cases r with
  | malformedTerm t =>
    have hd : "invalid expression " ++ t.bracketed = detail := Option.some.inj h
    calc
      _ = "Rule validation error: invalid expression " ++ t.bracketed := rfl
      _ = "Rule validation error: " ++ detail := by rw [hterm, String.append_assoc, hd]
  | malformedRule name =>
    have hd : "invalid rule " ++ name = detail := Option.some.inj h
    calc
      _ = "Rule validation error: invalid rule " ++ name := rfl
      _ = "Rule validation error: " ++ detail := by rw [hrule, String.append_assoc, hd]
  | noChange => cases h
  | tooManyChanges => cases h
  | doesNotApply => cases h
  | unknownRule name => cases h

theorem malformed?_ofDifferences (n : Nat) : (ofDifferences n).malformed? = none := by
  rcases n with _ | _ | n <;> rfl

end StepError

/-- The check itself takes any terms. -/
theorem Equation.malformed?_of_check {e : Equation} {t u : Term} {r : StepError}
    (h : e.check t u = .error r) : r.malformed? = none := by
  rw [(check_eq_error_iff.mp h).2, StepError.malformed?_ofDifferences]

namespace Theory

variable {θ₀ θ : Theory} {ms : List Move} {t u : Term} {name : String}

theorem Follows.wellFormed_of_mem (h : Follows θ₀ ms θ) {d : Schema} (hd : d ∈ θ.schemas) :
    θ.signature.wellFormed d.equation.lhs = true ∧
      θ.signature.wellFormed d.equation.rhs = true := by
  obtain ⟨hl, hr⟩ := h.read_of_mem hd
  exact ⟨Signature.wellFormed_of_read hl, Signature.wellFormed_of_read hr⟩

/-- The first of two terms that is not well formed. -/
def firstMalformed? (θ : Theory) (t u : Term) : Option Term :=
  [t, u].find? (!θ.signature.wellFormed ·)

/-- A schema that has been read is tried on all terms that are well formed. -/
theorem outcome_of_wellFormed {d : Schema}
    (hd : θ.signature.wellFormed d.equation.lhs = true ∧
      θ.signature.wellFormed d.equation.rhs = true) (t u : Term) :
    θ.outcome d t u =
      match θ.firstMalformed? t u with
      | some x => .error (.malformedTerm x)
      | none => d.equation.check t u := by
  rw [outcome, firstMalformed?]
  cases ht : θ.signature.wellFormed t with
  | false => simp [ht]
  | true =>
    cases hu : θ.signature.wellFormed u with
    | false => simp [ht, hu]
    | true => simp [ht, hu, hd]

theorem mem_ruleNames : name ∈ θ.ruleNames ↔ ∃ d, θ.schema? name = some d := by
  rw [← Option.isSome_iff_exists, schema?, List.find?_isSome]
  simp [ruleNames, available]

theorem Follows.validate_eq_malformed_iff (h : Follows θ₀ ms θ) {r : StepError} {detail : String}
    (hr : r.malformed? = some detail) :
    (θ.validate t u name).outcome = .error r ↔
      name ∈ θ.ruleNames ∧ ∃ x, θ.firstMalformed? t u = some x ∧ r = .malformedTerm x := by
  rw [mem_ruleNames, validate]
  cases hd : θ.schema? name with
  | none =>
    have hne : StepError.unknownRule name ≠ r := by
      rintro rfl
      cases hr
    simp [hne]
  | some d =>
    have hwf := h.wellFormed_of_mem (List.mem_of_find?_eq_some hd)
    simp only [outcome_of_wellFormed hwf]
    cases θ.firstMalformed? t u with
    | some x => simp [eq_comm]
    | none =>
      have hne : d.equation.check t u ≠ .error r := by
        intro hc
        rw [Equation.malformed?_of_check hc] at hr
        cases hr
      simp [hne]

theorem firstMalformed?_eq_some_iff {x : Term} :
    θ.firstMalformed? t u = some x ↔
      (θ.signature.wellFormed t = false ∧ x = t) ∨
        (θ.signature.wellFormed t = true ∧ θ.signature.wellFormed u = false ∧ x = u) := by
  rw [firstMalformed?]
  cases ht : θ.signature.wellFormed t with
  | false => simpa [ht] using eq_comm
  | true =>
    cases hu : θ.signature.wellFormed u with
    | false => simpa [ht, hu] using eq_comm
    | true => simp [ht, hu]

/-- In every state of a theory all terms that it reads are well formed. A step is refused for
something malformed exactly if its rule is available and one of its terms is not well formed. What
is named then is the first such term, and never the rule. -/
theorem malformed_reports {p : Presentation} (hp : ofPresentation p = .ok θ₀) (ss : List Switch) :
    (∀ formula t, (θ₀.switchAll ss).read formula = .ok t →
      (θ₀.switchAll ss).signature.wellFormed t = true) ∧
    ∀ (t u : Term) (name : String),
      let θ := θ₀.switchAll ss
      (∀ detail, (∃ r, (θ.validate t u name).outcome = .error r ∧ r.malformed? = some detail) ↔
        name ∈ θ.ruleNames ∧
          ((θ.signature.wellFormed t = false ∧ detail = "invalid expression " ++ t.bracketed) ∨
            (θ.signature.wellFormed t = true ∧ θ.signature.wellFormed u = false ∧
              detail = "invalid expression " ++ u.bracketed))) ∧
      ∀ rule, (θ.validate t u name).outcome ≠ .error (.malformedRule rule) := by
  have hf : Follows θ₀ (ss.flatMap Switch.moves) (θ₀.switchAll ss) :=
    (follows_ofPresentation hp).switchAll ss
  refine ⟨fun formula t h => Signature.wellFormed_of_read h, fun t u name => ⟨fun detail => ?_, ?_⟩⟩
  · constructor
    · rintro ⟨r, ho, hr⟩
      obtain ⟨hname, x, hx, rfl⟩ := (hf.validate_eq_malformed_iff hr).mp ho
      obtain rfl := Option.some.inj hr
      refine ⟨hname, ?_⟩
      rcases firstMalformed?_eq_some_iff.mp hx with ⟨ht, rfl⟩ | ⟨ht, hu, rfl⟩
      · exact .inl ⟨ht, rfl⟩
      · exact .inr ⟨ht, hu, rfl⟩
    · rintro ⟨hname, ⟨ht, rfl⟩ | ⟨ht, hu, rfl⟩⟩
      · have hx : (θ₀.switchAll ss).firstMalformed? t u = some t :=
          firstMalformed?_eq_some_iff.mpr (.inl ⟨ht, rfl⟩)
        exact ⟨_, (hf.validate_eq_malformed_iff rfl).mpr ⟨hname, t, hx, rfl⟩, rfl⟩
      · have hx : (θ₀.switchAll ss).firstMalformed? t u = some u :=
          firstMalformed?_eq_some_iff.mpr (.inr ⟨ht, hu, rfl⟩)
        exact ⟨_, (hf.validate_eq_malformed_iff rfl).mpr ⟨hname, u, hx, rfl⟩, rfl⟩
  · intro rule ho
    obtain ⟨-, x, -, hx⟩ := (hf.validate_eq_malformed_iff rfl).mp ho
    cases hx

/-- A union of one set is refused by a law of the active problem, and not by its name for another
problem. -/
theorem malformed_reports_of_absorption :
    let absorption : Law := ⟨"Absorption", none, "(x ∪ y) ∩ x", "x", none⟩
    let θ := sets.switchAll [.load "3.2" [absorption]]
    let u : Term := .node '|' [.leaf 'A']
    ofPresentation .sets = .ok sets ∧ "custom_3.2_absorption" ∈ θ.ruleNames ∧
      (∃ r, (θ.validate (.leaf 'A') u "custom_3.2_absorption").outcome = .error r ∧
        r.malformed? = some "invalid expression |(A)") ∧
      (¬ ∃ r, (θ.validate (.leaf 'A') u "custom_1.1_absorption").outcome = .error r ∧
        r.malformed? = some "invalid expression |(A)") ∧
      ∀ rule, (θ.validate (.leaf 'A') u "custom_3.2_absorption").outcome ≠
        .error (.malformedRule rule) := by
  intro absorption θ u
  have hreports :=
    (malformed_reports ofPresentation_sets [.load "3.2" [absorption]]).2 (.leaf 'A') u
  obtain ⟨hname, hother⟩ : "custom_3.2_absorption" ∈ θ.ruleNames ∧
      "custom_1.1_absorption" ∉ θ.ruleNames := by
    decide +kernel
  have ht : θ.signature.wellFormed (.leaf 'A') = true := by decide +kernel
  have hu : θ.signature.wellFormed u = false := by decide +kernel
  refine ⟨ofPresentation_sets, hname, ?_, ?_, (hreports _).2⟩
  · exact ((hreports _).1 _).mpr ⟨hname, .inr ⟨ht, hu, rfl⟩⟩
  · exact fun h => hother (((hreports _).1 _).mp h).1

end Theory

end Equational
