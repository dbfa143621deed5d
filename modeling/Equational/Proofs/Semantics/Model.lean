import Equational.Proofs.Formula.Derivation
import Equational.Proofs.Semantics.Valuation
import Equational.Proofs.Theory.History

/-! Models of a signature. In a model every constant stands for a value and every operator for a
function of as many values as it takes, and nothing stands for an operator with other operands. An
accepted step keeps the value of a term in every model, wherever the rule that it names holds. -/

namespace Equational

universe u

namespace Fixity

/-- What a symbol stands for among some values. -/
def Meaning (α : Type u) : Fixity → Type u
  | constant => α
  | before => α → α
  | behind => α → α
  | between => α → α → α

/-- What a symbol gives for its operands, if they are as many as it takes. -/
def result? {α : Type u} : (f : Fixity) → f.Meaning α → List α → Option α
  | constant, a, [] => some a
  | before, g, [a] => some (g a)
  | behind, g, [a] => some (g a)
  | between, g, [a, b] => some (g a b)
  | _, _, _ => none

theorem exists_result? {α : Type u} {f : Fixity} (g : f.Meaning α) {as : List α}
    (h : f.operands = as.length) : ∃ a, f.result? g as = some a := by
  match f, g, as, h with
  | constant, a, [], _ => exact ⟨a, rfl⟩
  | before, g, [a], _ => exact ⟨g a, rfl⟩
  | behind, g, [a], _ => exact ⟨g a, rfl⟩
  | between, g, [a, b], _ => exact ⟨g a b, rfl⟩

end Fixity

namespace Signature

/-- A constant, or a function of one or two values, for each symbol of a signature. -/
structure Model (σ : Signature) (α : Type u) where
  meaning : (s : Symbol) → s ∈ σ.symbols → s.fixity.Meaning α

namespace Model

variable {σ : Signature} {α : Type u} (M : σ.Model α)

/-- What the symbol of an id gives for its operands. -/
def result? (c : Char) (as : List α) : Option α :=
  match h : σ.byId? c with
  | some s => s.fixity.result? (M.meaning s (List.mem_of_find?_eq_some h)) as
  | none => none

theorem result?_of_byId? {c : Char} {s : Symbol} (h : σ.byId? c = some s) (as : List α) :
    M.result? c as = s.fixity.result? (M.meaning s (List.mem_of_find?_eq_some h)) as := by
  rw [result?]
  split
  · next s' hs' =>
    obtain rfl : s' = s := Option.some.inj (hs'.symm.trans h)
    rfl
  · next hnone =>
    rw [h] at hnone
    cases hnone

mutual

/-- The value of a term, if it is well formed. A leaf that is a letter has the value that the
valuation gives to it. -/
def value? (v : Char → α) : Term → Option α
  | .node c ts =>
    if ts.isEmpty && Term.isLetter c then some (v c) else (valueList? v ts).bind (M.result? c)

def valueList? (v : Char → α) : List Term → Option (List α)
  | [] => some []
  | t :: ts => (value? v t).bind fun a => (valueList? v ts).map (a :: ·)

end

theorem exists_result? {c : Char} {f : Fixity} (hf : σ.fixity? c = some f) {as : List α}
    (h : f.operands = as.length) : ∃ a, M.result? c as = some a := by
  obtain ⟨s, hs, rfl⟩ := Option.map_eq_some_iff.mp hf
  rw [M.result?_of_byId? hs]
  exact Fixity.exists_result? _ h

/-- The interpretation of all heads that agrees with the model where the model has a value. -/
def total (a₀ : α) (c : Char) (as : List α) : α := (M.result? c as).getD a₀

theorem valueList?_eq {v : Char → α} {g : Term → α} {ts : List Term}
    (h : ∀ t ∈ ts, M.value? v t = some (g t)) : M.valueList? v ts = some (ts.map g) := by
  induction ts with
  | nil => rfl
  | cons t ts ih =>
    rw [valueList?, h t (by simp), ih fun u hu => h u (by simp [hu])]
    rfl

/-- A well-formed term has a value in every model. -/
theorem value?_eq_eval {v : Char → α} (a₀ : α) {t : Term} (h : σ.wellFormed t = true) :
    M.value? v t = some (t.eval (M.total a₀) v) := by
  induction t with
  | node c ts ih =>
    obtain ⟨hhead, hargs⟩ := Bool.and_eq_true_iff.mp h
    rw [wellFormedList_eq, List.all_eq_true] at hargs
    rw [value?]
    by_cases hl : (ts.isEmpty && Term.isLetter c) = true
    · rw [if_pos hl, Term.eval, if_pos hl]
    · have hl' : (ts.isEmpty && Term.isLetter c) = false := by simpa using hl
      have hvalues := M.valueList?_eq fun t ht => ih t ht (hargs t ht)
      rw [if_neg hl, hvalues, Term.eval_node hl', Option.bind_some]
      split at hhead
      · next f hf =>
        have hlength : f.operands = (ts.map (Term.eval (M.total a₀) v)).length := by
          rw [List.length_map]
          exact beq_iff_eq.mp hhead
        obtain ⟨a, ha⟩ := M.exists_result? hf hlength
        rw [total, ha, Option.getD_some]
      · exact absurd hhead hl

end Model

end Signature

/-- In every state of a theory, an accepted step reports a rule of the theory, and in every model
the step keeps the value of the term under a valuation for which the rule holds, whatever values are
given to the lowercase letters of the rule. -/
theorem Theory.value_eq_of_validate {p : Presentation} {θ₀ : Theory}
    (hp : ofPresentation p = .ok θ₀) (ss : List Switch) {t u : Term} {name : String}
    (h : ((θ₀.switchAll ss).validate t u name).outcome = .ok ()) :
    ∃ r lhs rhs, ((θ₀.switchAll ss).validate t u name).rule = some r ∧
      (θ₀.switchAll ss).read r.lhs = .ok lhs ∧ (θ₀.switchAll ss).read r.rhs = .ok rhs ∧
      ∀ {α : Type u} (M : (θ₀.switchAll ss).signature.Model α) (v : Char → α),
        (∀ w : Char → α, (∀ c, c.isUpper = true → w c = v c) →
          M.value? w lhs = M.value? w rhs) →
        ∃ a, M.value? v t = some a ∧ M.value? v u = some a := by
  have hf := (follows_ofPresentation hp).switchAll ss
  generalize θ₀.switchAll ss = θ at h hf
  obtain ⟨d, hd, ho⟩ := validate_eq_ok_iff.mp h
  obtain ⟨ht, hu, ⟨hl, hr⟩, hc⟩ := outcome_eq_ok_iff.mp ho
  obtain ⟨hlhs, hrhs⟩ := hf.read_of_mem (List.mem_of_find?_eq_some hd)
  refine ⟨d.rule, d.equation.lhs, d.equation.rhs, rule_validate_of_schema? hd t u, hlhs, hrhs,
    fun M v hM => ?_⟩
  -- all terms here are well formed, so any value may stand for what the model leaves open
  have hvalue : ∀ (w : Char → _) {t : Term}, θ.signature.wellFormed t = true →
      M.value? w t = some (t.eval (M.total (v 'A')) w) := fun w _ ht => M.value?_eq_eval _ ht
  have hholds : d.equation.Holds (M.total (v 'A')) v := by
    intro w hw
    have hw' := hM w hw
    rw [hvalue w hl, hvalue w hr] at hw'
    exact Option.some.inj hw'
  refine ⟨_, hvalue v ht, ?_⟩
  rw [hvalue v hu, Equation.eval_eq_of_check hc hholds]

/-- Numbers as a model of the theory of sets, where the greater of two is their union and the lesser
their intersection. -/
def Signature.Model.numbers : Theory.sets.signature.Model Nat where
  meaning s _ :=
    match s.fixity with
    | .constant => Nat.zero
    | .before => Nat.succ
    | .behind => Nat.succ
    | .between => if s.id = '|' then max else min

theorem Signature.Model.result?_numbers_union (m n : Nat) :
    numbers.result? '|' [m, n] = some (max m n) := by
  have hs : Theory.sets.signature.byId? '|' = some Presentation.setsSymbols[3] := by
    decide +kernel
  rw [result?_of_byId? _ hs]
  rfl

theorem Signature.Model.result?_numbers_intersection (m n : Nat) :
    numbers.result? '&' [m, n] = some (min m n) := by
  have hs : Theory.sets.signature.byId? '&' = some Presentation.setsSymbols[4] := by
    decide +kernel
  rw [result?_of_byId? _ hs]
  rfl

/-- Absorption, brought along by a problem, holds for numbers. A step by it keeps the value of a term
there, though other rules of the theory do not hold. -/
theorem Theory.value_eq_of_validate_of_absorption :
    let absorption : Law := ⟨"Absorption", none, "(x ∪ y) ∩ x", "x", none⟩
    let θ := sets.switchAll [.load "3.2" [absorption]]
    let t : Term := .node '|' [.node '&' [.node '|' [.leaf 'A', .leaf 'b'], .leaf 'A'], .leaf 'b']
    let u : Term := .node '|' [.leaf 'A', .leaf 'b']
    ofPresentation .sets = .ok sets ∧
      (θ.validate t u "custom_3.2_absorption").outcome.isOk = true ∧
      ∀ v, ∃ n, Signature.Model.numbers.value? v t = some n ∧
        Signature.Model.numbers.value? v u = some n := by
  intro absorption θ t u
  let lhs : Term := .node '&' [.node '|' [.leaf 'x', .leaf 'y'], .leaf 'x']
  obtain ⟨hok, hrule⟩ : (θ.validate t u "custom_3.2_absorption").outcome.isOk = true ∧
      (θ.validate t u "custom_3.2_absorption").rule = some (absorption.rule "3.2") := by
    decide +kernel
  have hlhs : (θ.read "(x ∪ y) ∩ x").toOption = some lhs := by decide +kernel
  have hrhs : (θ.read "x").toOption = some (.leaf 'x') := by decide +kernel
  have hholds : ∀ w : Char → Nat, Signature.Model.numbers.value? w lhs =
      Signature.Model.numbers.value? w (.leaf 'x') := by
    intro w
    have hvalue : Signature.Model.numbers.value? w lhs =
        some (min (max (w 'x') (w 'y')) (w 'x')) := by
      simp [lhs, Term.leaf, Signature.Model.value?, Signature.Model.valueList?, Term.isLetter,
        Signature.Model.result?_numbers_union, Signature.Model.result?_numbers_intersection]
    have habsorb : min (max (w 'x') (w 'y')) (w 'x') = w 'x' := by omega
    rw [hvalue, habsorb]
    rfl
  refine ⟨ofPresentation_sets, hok, fun v => ?_⟩
  cases houtcome : (θ.validate t u "custom_3.2_absorption").outcome with
  | error e =>
    rw [houtcome] at hok
    cases hok
  | ok _ =>
    obtain ⟨r, lhs', rhs', hr, hl', hr', hvalue⟩ :=
      value_eq_of_validate ofPresentation_sets [.load "3.2" [absorption]] houtcome
    obtain rfl := Option.some.inj (hrule.symm.trans hr)
    obtain rfl : lhs = lhs' := Option.some.inj (hlhs.symm.trans (congrArg Except.toOption hl'))
    obtain rfl : Term.leaf 'x' = rhs' :=
      Option.some.inj (hrhs.symm.trans (congrArg Except.toOption hr'))
    exact hvalue Signature.Model.numbers v fun w _ => hholds w

end Equational
