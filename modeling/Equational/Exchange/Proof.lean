import Equational.Exchange.Theory
import Equational.Proof

namespace Equational

open Json (Record Decoder)

/-- A member that is left out of an object if there is nothing to write. -/
def Json.memberOfOption {α : Type} (key : String) (f : α → Json) :
    Option α → List (String × Json)
  | some a => [(key, f a)]
  | none => []

def Problem.toJson (p : Problem) : Json :=
  .obj ([("week", .nat p.week.toNat), ("number", .nat p.number.toNat), ("theory", .str p.theory),
      ("name", .str p.name), ("description", .str p.description), ("LHS", .str p.lhs),
      ("RHS", .str p.rhs)] ++
    (if p.hints.isEmpty then [] else [("hints", .strings p.hints)]) ++
    Json.memberOfOption "enabledRules" .strings p.enabledRules ++
    Json.memberOfOption "disabledRules" .strings p.disabledRules ++
    Json.memberOfOption "customLaws" (.list Law.toJson) p.customLaws)

def Problem.decode : Decoder Problem :=
  (Record.and (.field "week" .uint32) <|
    .and (.field "number" .uint32) <|
    .and (.field "theory" .text) <|
    .and (.fieldD "name" .text "") <|
    .and (.fieldD "description" .text "") <|
    .and (.field "LHS" .text) <|
    .and (.field "RHS" .text) <|
    .and (.fieldD "hints" (.list .text) []) <|
    .and (.fieldD "enabledRules" (.option (.list .text)) none) <|
    .and (.fieldD "disabledRules" (.option (.list .text)) none) <|
    .fieldD "customLaws" (.option (.list Law.decode)) none).map
    (fun (week, number, theory, name, description, lhs, rhs, hints, enabled, disabled, laws) =>
      Problem.mk week number theory name description lhs rhs hints enabled disabled laws) |>.decode

def ProblemSet.toJson (s : ProblemSet) : Json :=
  .obj [("problems", .list Problem.toJson s.problems)]

def ProblemSet.decode : Decoder ProblemSet :=
  (Record.field "problems" (.list Problem.decode)).map ProblemSet.mk |>.decode

def ProofStep.toJson (s : ProofStep) : Json :=
  .obj [("expression", .str s.expression), ("rule", s.rule.toJson)]

def ProofStep.decode : Decoder ProofStep :=
  (Record.and (.field "expression" .text) <|
    .field "rule" Rule.decode).map
    (fun (expression, rule) =>
      ProofStep.mk expression rule) |>.decode

def ProofSheet.toJson (s : ProofSheet) : Json :=
  .obj [("title", .str s.title), ("description", .str s.description), ("lhs", .str s.lhs),
    ("rhs", .str s.rhs), ("expressions", .strings s.expressions), ("rules", .strings s.rules),
    ("theory", .str s.theory)]

def ProofSheet.decode : Decoder ProofSheet :=
  (Record.and (.field "title" .text) <|
    .and (.field "description" .text) <|
    .and (.field "lhs" .text) <|
    .and (.field "rhs" .text) <|
    .and (.field "expressions" (.list .text)) <|
    .and (.field "rules" (.list .text)) <|
    .field "theory" .text).map
    (fun (title, description, lhs, rhs, expressions, rules, theory) =>
      ProofSheet.mk title description lhs rhs expressions rules theory) |>.decode

end Equational
