import Equational.Formula.Reading
import Equational.Rewriting.Step
import Equational.Text.Lowercase

namespace Equational

/-- A named equation of a theory. Lowercase letters in its sides are pattern variables. -/
structure Rule where
  name : String
  text : String
  lhs : String
  rhs : String
  level : UInt8
deriving DecidableEq, Inhabited

/-- The groups in which rules are listed. -/
inductive Category where
  | basic
  | definitions
  | derived
  | problemSpecific
deriving DecidableEq

namespace Category

def all : List Category := [basic, definitions, derived, problemSpecific]

end Category

namespace Rule

def basicLevel : UInt8 := 0

def definitionLevel : UInt8 := 1

def derivedLevel : UInt8 := 2

def lawLevel : UInt8 := 99

def category (r : Rule) : Category :=
  if r.level = basicLevel then .basic
  else if r.level = definitionLevel then .definitions
  else if r.level = lawLevel then .problemSpecific
  else .derived

end Rule

/-- An equation that a problem brings along. Without a theory it holds in every theory. -/
structure Law where
  name : String
  text : Option String
  lhs : String
  rhs : String
  theory : Option String
deriving DecidableEq, Inhabited

namespace Law

/-- The name of the rule that a law becomes for a problem: the words of its own name in small
letters, with underscores between them, behind the id of the problem. -/
def ruleName (l : Law) (problem : String) : String :=
  "custom_" ++ problem ++ "_" ++
    String.ofList (Text.lower (['_'].intercalate (Text.words l.name.toList)))

/-- The rule that a law becomes for a problem. -/
def rule (l : Law) (problem : String) : Rule where
  name := l.ruleName problem
  text := if l.name.isEmpty then l.text.getD "" else l.name
  lhs := l.lhs
  rhs := l.rhs
  level := Rule.lawLevel

def appliesTo (l : Law) (theory : String) : Bool := l.theory.all (· == theory)

end Law

/-- Where a rule comes from. -/
inductive Source where
  | theory
  | problem (id : String)
deriving DecidableEq

namespace Source

def problem? : Source → Option String
  | theory => none
  | problem id => some id

end Source

/-- A rule with the equation that its sides stand for. -/
structure Schema where
  rule : Rule
  equation : Equation
  source : Source

namespace Schema

def isCustom (s : Schema) : Bool := s.source.problem?.isSome

end Schema

/-- Reads both sides of a rule. If neither can be read the left side gives the error. -/
def Rule.schema (r : Rule) (σ : Signature) (source : Source) : Except ReadError Schema := do
  let lhs ← σ.read r.lhs
  let rhs ← σ.read r.rhs
  return ⟨r, ⟨lhs, rhs⟩, source⟩

end Equational
