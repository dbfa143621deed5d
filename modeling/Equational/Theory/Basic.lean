import Equational.Formula.Writing
import Equational.Problem
import Equational.SortedMap

/-!
A theory holds a signature, the rules listed for it, and the laws of problems that have been loaded
into it. At most one problem is active, and its laws are available as rules behind those of the
theory itself.
-/

namespace Equational

structure TheoryInfo where
  name : String
  displayName : String
  description : String
deriving DecidableEq, Inhabited

/-- The data that a theory is built from. -/
structure Presentation where
  info : TheoryInfo
  symbols : List Symbol
  equality : EqualitySign
  rules : List Rule
deriving DecidableEq, Inhabited

/-- `listed` are the rules of the presentation, whether or not they can be read. `schemas` are the
rules that are available, with the laws of the active problem among them. They are compiled at any
time: a cache that has still to be compiled exists only within an operation, as `CachedTheory` shows
in full. -/
structure Theory where
  info : TheoryInfo
  signature : Signature
  listed : List Rule
  stored : SortedMap String (List Law)
  active : Option String
  schemas : List Schema

/-- What a check of one step finds. The rule is missing if there is none of the given name. -/
structure StepReport where
  outcome : Except StepError Unit
  rule : Option Rule
  isCustom : Bool
  isProblemSpecific : Bool

namespace Theory

/-- The schemas of those rules that can be read. -/
def readable (σ : Signature) (source : Source) (rules : List Rule) : List Schema :=
  rules.filterMap fun r => (r.schema σ source).toOption

def ofPresentation (p : Presentation) : Except SignatureError Theory := do
  let σ ← Signature.ofSymbols p.symbols p.equality
  return ⟨p.info, σ, p.rules, ∅, none, readable σ .theory p.rules⟩

variable (θ : Theory)

def name : String := θ.info.name

def read (formula : String) : Except ReadError Term := θ.signature.read formula

/-- The schemas of the laws stored for a problem that hold in this theory. -/
def lawSchemas (problem : String) (laws : List Law) : List Schema :=
  readable θ.signature (.problem problem)
    ((laws.filter (·.appliesTo θ.name)).map (·.rule problem))

/-- Makes a problem the active one, with the given laws, which also become the ones stored for it.
All rules are compiled anew, and the laws that are then looked up by the id of the problem are these.
-/
def load (problem : String) (laws : List Law) : Theory :=
  { θ with
    stored := θ.stored.insert problem laws
    active := some problem
    schemas := readable θ.signature .theory θ.listed ++ θ.lawSchemas problem laws }

/-- Leaves no problem active. The laws of problems stay stored. -/
def clear : Theory :=
  { θ with
    active := none
    schemas := θ.schemas.filter (!·.isCustom) }

/-- Begins a problem. It becomes active only if it has a list of laws, even an empty one. -/
def start (p : Problem) : Theory :=
  match p.customLaws with
  | some laws => θ.clear.load p.id laws
  | none => θ.clear

/-- The laws of the active problem as they were loaded. -/
def customLaws : List Law :=
  match θ.active with
  | some problem => (θ.stored.get? problem).getD []
  | none => []

def available : List Rule := θ.schemas.map (·.rule)

def ruleNames : List String := θ.available.map (·.name)

def rulesOfLevel (level : UInt8) : List Rule := θ.available.filter (·.level == level)

/-- The available rules by category, without the categories that have none. -/
def rulesByCategory : List (Category × List Rule) :=
  (Category.all.map fun c => (c, θ.available.filter (·.category == c))).filter (!·.2.isEmpty)

def schema? (name : String) : Option Schema := θ.schemas.find? (·.rule.name == name)

/-- Looks a rule up among the available ones, then among the listed ones that cannot be read. -/
def rule? (name : String) : Option Rule :=
  ((θ.schema? name).map (·.rule)).or (θ.listed.find? (·.name == name))

/-- The outcome of a step by a schema: terms that are not well formed are refused before it is
tried. -/
def outcome (s : Schema) (t u : Term) : Except StepError Unit :=
  if !θ.signature.wellFormed t then .error (.malformedTerm t)
  else if !θ.signature.wellFormed u then .error (.malformedTerm u)
  else if !(θ.signature.wellFormed s.equation.lhs && θ.signature.wellFormed s.equation.rhs) then
    .error (.malformedRule s.rule.name)
  else s.equation.check t u

/-- Checks that `u` follows from `t` by one use of the rule of a name. -/
def validate (t u : Term) (ruleName : String) : StepReport :=
  match θ.schema? ruleName with
  | none => ⟨.error (.unknownRule ruleName), none, false, false⟩
  | some s =>
    { outcome := θ.outcome s t u
      rule := some s.rule
      isCustom := s.isCustom
      isProblemSpecific := s.source.problem?.isSome && s.source.problem? == θ.active }

end Theory

end Equational
