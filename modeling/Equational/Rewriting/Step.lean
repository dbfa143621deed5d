import Equational.Rewriting.Difference
import Equational.Rewriting.Matching

/-!
One step of an equational proof rewrites one subterm by an equation, read from left to right or
from right to left, and leaves all else as it was.
-/

namespace Equational

/-- Why a step does not follow by its rule. -/
inductive StepError where
  | noChange
  | tooManyChanges
  | doesNotApply
  | unknownRule (name : String)
  | malformedTerm (t : Term)
  | malformedRule (name : String)
deriving DecidableEq

def StepError.message : StepError → String
  | noChange => "No rule has been applied"
  | tooManyChanges =>
    "Too many changes have been made. Please only apply the rule in one place"
  | doesNotApply => "The chosen rule does not apply"
  | unknownRule name => "Unknown rule: " ++ name
  | malformedTerm t => "Rule validation error: invalid expression " ++ t.bracketed
  | malformedRule name => "Rule validation error: invalid rule " ++ name

/-- Two patterns whose instances are equal. -/
structure Equation where
  lhs : Term
  rhs : Term
deriving DecidableEq

namespace Equation

/-- The equation read from right to left. -/
def flip (e : Equation) : Equation := ⟨e.rhs, e.lhs⟩

/-- Rewriting the whole of `t`, from left to right, gives `u`. -/
def rewrites (e : Equation) (t u : Term) : Bool :=
  match e.lhs.matchAgainst t ∅ with
  | .ok b => b.instantiate e.rhs = u
  | .error _ => false

mutual

/-- Checks one use of an equation, read from left to right. Either the two terms are rewritten as
they stand, or they have the same head and differ in one argument, where the step is looked for. -/
def checkForward (e : Equation) : (t u : Term) → Except StepError Unit
  | .node c ts, .node d us =>
    if e.rewrites (.node c ts) (.node d us) then .ok ()
    else if c ≠ d ∨ ts.length ≠ us.length then .error .doesNotApply
    else checkForwardList e ts us

def checkForwardList (e : Equation) : (ts us : List Term) → Except StepError Unit
  | t :: ts, u :: us =>
    if t = u then checkForwardList e ts us
    else if ts = us then checkForward e t u
    else .error .doesNotApply
  | _, _ => .error .noChange

end

/-- Checks that `u` is `t` with one subterm rewritten by the equation, in either reading. -/
def check (e : Equation) (t u : Term) : Except StepError Unit :=
  if t = u then .error .noChange
  else if (e.checkForward t u).isOk || (e.flip.checkForward t u).isOk then .ok ()
  else match t.differences u with
    | 0 => .error .noChange
    | 1 => .error .doesNotApply
    | _ => .error .tooManyChanges

end Equation

end Equational
