import Equational.Proofs.Except
import Equational.Theory.Basic

namespace Equational

theorem Rule.schema_eq_ok_iff {r : Rule} {σ : Signature} {source : Source} {d : Schema} :
    r.schema σ source = .ok d ↔
      σ.read r.lhs = .ok d.equation.lhs ∧ σ.read r.rhs = .ok d.equation.rhs ∧
        d.rule = r ∧ d.source = source := by
  obtain ⟨rule, ⟨lhs, rhs⟩, source'⟩ := d
  rw [schema]
  cases hl : σ.read r.lhs with
  | error e => simp [bind, Except.bind]
  | ok t =>
    cases hr : σ.read r.rhs with
    | error e => simp [bind, Except.bind]
    | ok u =>
      simp only [bind, Except.bind, pure, Except.pure, Except.ok.injEq, Schema.mk.injEq,
        Equation.mk.injEq]
      constructor
      · rintro ⟨rfl, ⟨rfl, rfl⟩, rfl⟩
        exact ⟨rfl, rfl, rfl, rfl⟩
      · rintro ⟨rfl, rfl, rfl, rfl⟩
        exact ⟨rfl, ⟨rfl, rfl⟩, rfl⟩

namespace Theory

variable {θ θ' : Theory}

theorem ofPresentation_eq_ok_iff {p : Presentation} :
    ofPresentation p = .ok θ ↔
      ∃ σ, Signature.ofSymbols p.symbols p.equality = .ok σ ∧
        θ = ⟨p.info, σ, p.rules, ∅, none, readable σ .theory p.rules⟩ := by
  rw [ofPresentation]
  cases Signature.ofSymbols p.symbols p.equality with
  | error e => simp [bind, Except.bind]
  | ok σ =>
    simp only [bind, Except.bind, pure, Except.pure, Except.ok.injEq, exists_eq_left']
    exact eq_comm

theorem mem_readable {σ : Signature} {source : Source} {rules : List Rule} {d : Schema} :
    d ∈ readable σ source rules ↔ ∃ r ∈ rules, r.schema σ source = .ok d := by
  rw [readable, List.mem_filterMap]
  simp only [toOption_eq_some_iff]

/-- The part of a theory that commands never change. -/
def presented (θ : Theory) : TheoryInfo × Signature × List Rule :=
  (θ.info, θ.signature, θ.listed)

@[simp] theorem presented_load (θ : Theory) (problem : String) (laws : List Law) :
    (θ.load problem laws).presented = θ.presented := rfl

@[simp] theorem presented_clear (θ : Theory) : θ.clear.presented = θ.presented := rfl

@[simp] theorem presented_start (θ : Theory) (p : Problem) :
    (θ.start p).presented = θ.presented := by
  rw [start]
  split
  · rw [presented_load, presented_clear]
  · exact presented_clear θ

theorem presented_eq_iff :
    θ.presented = θ'.presented ↔
      θ.info = θ'.info ∧ θ.signature = θ'.signature ∧ θ.listed = θ'.listed := by
  simp [presented]

theorem read_eq_of_presented (h : θ.presented = θ'.presented) : θ.read = θ'.read := by
  funext formula
  rw [read, read, (presented_eq_iff.mp h).2.1]

theorem schemas_start (θ : Theory) {p : Problem} {laws : List Law} (h : p.customLaws = some laws) :
    (θ.start p).schemas =
      readable θ.signature .theory θ.listed ++ θ.lawSchemas p.id laws := by
  rw [start, h]
  rfl

/-- An available law is one that was brought along, and both of its sides can be read. -/
theorem exists_law_of_mem {problem : String} {laws : List Law} {d : Schema}
    (h : d ∈ θ.lawSchemas problem laws) :
    ∃ l ∈ laws, l.appliesTo θ.name = true ∧ θ.read l.lhs = .ok d.equation.lhs ∧
      θ.read l.rhs = .ok d.equation.rhs := by
  obtain ⟨r, hr, hd⟩ := mem_readable.mp h
  obtain ⟨l, hl, rfl⟩ := List.mem_map.mp hr
  obtain ⟨hm, ha⟩ := List.mem_filter.mp hl
  obtain ⟨hlhs, hrhs, -, -⟩ := Rule.schema_eq_ok_iff.mp hd
  exact ⟨l, hm, ha, hlhs, hrhs⟩

theorem name_of_schema? {name : String} {d : Schema} (h : θ.schema? name = some d) :
    d.rule.name = name := by
  simpa using List.find?_some h

theorem outcome_eq_ok_iff {d : Schema} {t u : Term} :
    θ.outcome d t u = .ok () ↔
      θ.signature.wellFormed t = true ∧ θ.signature.wellFormed u = true ∧
        (θ.signature.wellFormed d.equation.lhs = true ∧
          θ.signature.wellFormed d.equation.rhs = true) ∧ d.equation.check t u = .ok () := by
  rw [outcome]
  cases θ.signature.wellFormed t
  · simp
  cases θ.signature.wellFormed u
  · simp
  cases θ.signature.wellFormed d.equation.lhs <;>
    cases θ.signature.wellFormed d.equation.rhs <;> simp

theorem rule_validate_of_schema? {name : String} {d : Schema} (h : θ.schema? name = some d)
    (t u : Term) : (θ.validate t u name).rule = some d.rule := by
  rw [validate, h]

/-- A step is found right if the schema of the name accepts it. -/
theorem validate_eq_ok_iff {t u : Term} {name : String} :
    (θ.validate t u name).outcome = .ok () ↔
      ∃ d, θ.schema? name = some d ∧ θ.outcome d t u = .ok () := by
  rw [validate]
  cases θ.schema? name with
  | none => simp
  | some d => simp

end Theory

end Equational
