import Equational.Theory.Basic

namespace Equational

/-- Why a step is not recorded. -/
inductive ProofError where
  | emptyExpression
  | noRule
  | previous (e : ReadError)
  | expression (e : ReadError)
  | ruleDisabled (name : String)
  | noStep (index : Nat)
  | step (e : StepError)
deriving DecidableEq

def ProofError.message : ProofError → String
  | emptyExpression => "Please enter an expression"
  | noRule => "Please select a rule"
  | previous e => "Error in previous: " ++ e.message
  | expression e => "Error in expression: " ++ e.message
  | ruleDisabled name => "Rule '" ++ name ++ "' is not enabled for this problem"
  | noStep i => "There is no step " ++ toString i
  | step e => e.message

/-- An expression without its white space, and the rule by which it follows. -/
structure ProofStep where
  expression : String
  rule : Rule
deriving DecidableEq, Inhabited

/-- A proof as it is shown, with the texts of its rules. -/
structure ProofSheet where
  title : String
  description : String
  lhs : String
  rhs : String
  expressions : List String
  rules : List String
  theory : String
deriving DecidableEq, Inhabited

/-- A way from the left side of a problem's equation to its right side. A step is recorded only after
it has been checked against a theory. -/
structure Proof where
  problem : Problem
  steps : List ProofStep
deriving DecidableEq, Inhabited

namespace Proof

def ofProblem (p : Problem) : Proof := ⟨p, []⟩

/-- The step from one expression to another by the rule of a name, if it holds in the theory and
the problem allows the rule. -/
def justify (p : Problem) (θ : Theory) (previous expression ruleName : String) :
    Except ProofError ProofStep := do
  let squeezed := String.ofList (Text.squeeze expression.toList)
  if squeezed.isEmpty then throw .emptyExpression
  if ruleName.isEmpty then throw .noRule
  let t ← (θ.read previous).mapError .previous
  let u ← (θ.read squeezed).mapError .expression
  if (θ.rule? ruleName).any (!p.allows ·) then throw (.ruleDisabled ruleName)
  let report := θ.validate t u ruleName
  report.outcome.mapError .step
  match report.rule with
  | some rule => return ⟨squeezed, rule⟩
  | none => throw (.step (.unknownRule ruleName))

variable (π : Proof) (θ : Theory)

/-- The expression that the next step starts from. -/
def current : String :=
  match π.steps.getLast? with
  | some s => s.expression
  | none => π.problem.lhs

/-- The expression that a recorded step starts from. -/
def expressionBefore : (index : Nat) → index < π.steps.length → String
  | 0, _ => π.problem.lhs
  | i + 1, _ => π.steps[i].expression

/-- Adds a step at the end. -/
def add (expression ruleName : String) : Except ProofError ProofStep × Proof :=
  match justify π.problem θ π.current expression ruleName with
  | .ok s => (.ok s, { π with steps := π.steps ++ [s] })
  | .error e => (.error e, π)

/-- Puts another step in the place of one. The steps after it are dropped. -/
def edit (index : Nat) (expression ruleName : String) : Except ProofError ProofStep × Proof :=
  if h : index < π.steps.length then
    match justify π.problem θ (π.expressionBefore index h) expression ruleName with
    | .ok s => (.ok s, { π with steps := π.steps.take index ++ [s] })
    | .error e => (.error e, π)
  else (.error (.noStep index), π)

/-- Drops a step and all steps after it. -/
def delete (index : Nat) : Except ProofError Unit × Proof :=
  if index < π.steps.length then (.ok (), { π with steps := π.steps.take index })
  else (.error (.noStep index), π)

/-- The last step has arrived at the right side. -/
def isComplete : Bool :=
  match π.steps.getLast? with
  | none => false
  | some s =>
    match θ.read s.expression, θ.read π.problem.rhs with
    | .ok t, .ok u => t = u
    | _, _ => false

def sheet : ProofSheet where
  title := π.problem.name
  description := π.problem.description
  lhs := π.problem.lhs
  rhs := π.problem.rhs
  expressions := π.steps.map (·.expression)
  rules := π.steps.map (·.rule.text)
  theory := θ.name

end Proof

end Equational
