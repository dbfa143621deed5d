import Equational.Json.Record
import Equational.Signature.Symbol

namespace Equational

open Json (Record Decoder)

def Fixity.toJson (f : Fixity) : Json := .int f.code

/-- A fixity is read from its code, a number of 8 bits. -/
def Fixity.decode : Decoder Fixity := fun d => do
  match ofCode? (← Decoder.integer (-128) 127 d) with
  | some f => return f
  | none => throw .mismatched

def Symbol.toJson (s : Symbol) : Json :=
  .obj [("id", .char s.id), ("name", .str s.name), ("display", .str s.display),
    ("text", .str s.text), ("markdown", .ofOption .str s.markdown), ("latex", .str s.latex),
    ("arity", s.fixity.toJson)]

def Symbol.decode : Decoder Symbol :=
  (Record.and (.field "id" .character) <|
    .and (.field "name" .text) <|
    .and (.field "display" .text) <|
    .and (.field "text" .text) <|
    .and (.fieldD "markdown" (.option .text) none) <|
    .and (.field "latex" .text) <|
    .field "arity" Fixity.decode).map
    (fun (id, name, display, text, markdown, latex, fixity) =>
      Symbol.mk id name display text markdown latex fixity) |>.decode

def EqualitySign.toJson (e : EqualitySign) : Json :=
  .obj [("display", .str e.display), ("markdown", .str e.markdown), ("latex", .str e.latex)]

def EqualitySign.decode : Decoder EqualitySign :=
  (Record.and (.field "display" .text) <|
    .and (.field "markdown" .text) <|
    .field "latex" .text).map
    (fun (display, markdown, latex) =>
      EqualitySign.mk display markdown latex) |>.decode

end Equational
