import Equational.Rewriting.Substitution
import Equational.Term.Linear

namespace Equational

inductive MatchError where
  | headMismatch (expected found : Char)
  | arityMismatch (head : Char) (expected found : Nat)
  | bindingMismatch (name : Char) (bound found : Term)
deriving DecidableEq

def MatchError.message : MatchError → String
  | headMismatch p c =>
    "expected `" ++ String.singleton p ++ "` but found `" ++ String.singleton c ++ "`"
  | arityMismatch p n m =>
    "`" ++ String.singleton p ++ "` expects " ++ toString n ++ " operands but found " ++ toString m
  | bindingMismatch x t u =>
    "variable `" ++ String.singleton x ++ "` is bound to " ++ t.bracketed ++
      " but would also have to be " ++ u.bracketed

/-- Why a pattern does not match, and what was bound before that was found out. -/
structure MatchFailure where
  cause : MatchError
  bindings : Bindings

namespace Term

mutual

/-- Extends the bindings `b` so that the pattern becomes the given term. A pattern variable stands
for the term it is first met with, and later on for no other. -/
def matchAgainst : (pattern t : Term) → (b : Bindings) → Except MatchFailure Bindings
  | node p ps, node c cs, b =>
    if ps.isEmpty && p.isLower then
      match b.get? p with
      | some u =>
        if u = node c cs then .ok b else .error ⟨.bindingMismatch p u (node c cs), b⟩
      | none => .ok (b.insert p (node c cs))
    else if p ≠ c then .error ⟨.headMismatch p c, b⟩
    else if ps.length ≠ cs.length then .error ⟨.arityMismatch p ps.length cs.length, b⟩
    else matchAgainstList ps cs b

def matchAgainstList : (patterns ts : List Term) → (b : Bindings) → Except MatchFailure Bindings
  | p :: ps, c :: cs, b =>
    match matchAgainst p c b with
    | .ok b => matchAgainstList ps cs b
    | .error e => .error e
  | _, _, b => .ok b

end

end Term

end Equational
