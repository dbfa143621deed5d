import Equational.Json.Record
import Equational.Term.Basic

namespace Equational.Term

open Json (Record Decoder Draft)

mutual

def toJson : Term → Json
  | node c ts => .obj [("root", .char c), ("children", .arr (toJsonList ts))]

def toJsonList : List Term → List Json
  | [] => []
  | t :: ts => toJson t :: toJsonList ts

end

/-- Reads a term from a draft that is at most `depth` deep. -/
def decodeWithin (depth : Nat) : Decoder Term :=
  match depth with
  | 0 => .refuse
  | n + 1 =>
    (Record.and (.field "root" .character) <|
      .field "children" (.list (decodeWithin n))).map (fun (c, ts) => node c ts) |>.decode

def decode : Decoder Term := fun d => decodeWithin (d.depth + 1) d

end Equational.Term
