import Equational.Theory.Rule

namespace Equational

/-- An equation to be proved. It may narrow down the rules of its theory, and may bring laws of its
own. -/
structure Problem where
  week : UInt32
  number : UInt32
  theory : String
  name : String
  description : String
  lhs : String
  rhs : String
  hints : List String
  enabledRules : Option (List String)
  disabledRules : Option (List String)
  customLaws : Option (List Law)
deriving DecidableEq, Inhabited

namespace Problem

/-- The key under which a theory keeps the laws of a problem. -/
def id (p : Problem) : String := toString p.week.toNat ++ "." ++ toString p.number.toNat

/-- The part of a rule's name before the first underscore, which stands for a family of rules. -/
def family (name : String) : String := String.ofList (name.toList.takeWhile (· != '_'))

/-- Whether a rule may be used. A list of enabled rules, which may name families, takes precedence
over a list of disabled ones, and the laws of a problem may always be used. -/
def allows (p : Problem) (r : Rule) : Bool :=
  r.category = .problemSpecific ||
    match p.enabledRules, p.disabledRules with
    | some enabled, _ => enabled.any (fun n => n == r.name || n == family r.name)
    | none, some disabled => !disabled.contains r.name
    | none, none => true

end Problem

structure ProblemSet where
  problems : List Problem
deriving DecidableEq, Inhabited

namespace ProblemSet

/-- The first problem with an id. -/
def get? (s : ProblemSet) (id : String) : Option Problem := s.problems.find? (·.id == id)

/-- The problems of a week by number. Those of one number stay in the order of the set. -/
def week (s : ProblemSet) (w : UInt32) : List Problem :=
  (s.problems.filter (·.week == w)).mergeSort (fun p q => p.number ≤ q.number)

end ProblemSet

end Equational
