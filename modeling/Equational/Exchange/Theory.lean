import Equational.Exchange.Signature
import Equational.Theory.Basic

namespace Equational

open Json (Record Decoder)

def Rule.toJson (r : Rule) : Json :=
  .obj [("name", .str r.name), ("text", .str r.text), ("LHS", .str r.lhs), ("RHS", .str r.rhs),
    ("level", .nat r.level.toNat)]

def Rule.decode : Decoder Rule :=
  (Record.and (.field "name" .text) <|
    .and (.field "text" .text) <|
    .and (.field "LHS" .text) <|
    .and (.field "RHS" .text) <|
    .field "level" .uint8).map
    (fun (name, text, lhs, rhs, level) =>
      Rule.mk name text lhs rhs level) |>.decode

def Law.toJson (l : Law) : Json :=
  .obj [("name", .str l.name), ("text", .ofOption .str l.text), ("lhs", .str l.lhs),
    ("rhs", .str l.rhs), ("theory", .ofOption .str l.theory)]

def Law.decode : Decoder Law :=
  (Record.and (.field "name" .text) <|
    .and (.fieldD "text" (.option .text) none) <|
    .and (.fieldOf ["lhs", "LHS"] .text none) <|
    .and (.fieldOf ["rhs", "RHS"] .text none) <|
    .fieldD "theory" (.option .text) none).map
    (fun (name, text, lhs, rhs, theory) =>
      Law.mk name text lhs rhs theory) |>.decode

def TheoryInfo.toJson (i : TheoryInfo) : Json :=
  .obj [("name", .str i.name), ("displayName", .str i.displayName),
    ("description", .str i.description)]

def TheoryInfo.decode : Decoder TheoryInfo :=
  (Record.and (.field "name" .text) <|
    .and (.field "displayName" .text) <|
    .field "description" .text).map
    (fun (name, displayName, description) =>
      TheoryInfo.mk name displayName description) |>.decode

def Presentation.toJson (p : Presentation) : Json :=
  .obj [("info", p.info.toJson), ("symbols", .list Symbol.toJson p.symbols),
    ("equality", p.equality.toJson), ("rules", .list Rule.toJson p.rules)]

def Presentation.decode : Decoder Presentation :=
  (Record.and (.field "info" TheoryInfo.decode) <|
    .and (.field "symbols" (.list Symbol.decode)) <|
    .and (.fieldD "equality" EqualitySign.decode .plain) <|
    .field "rules" (.list Rule.decode)).map
    (fun (info, symbols, equality, rules) =>
      Presentation.mk info symbols equality rules) |>.decode

end Equational
