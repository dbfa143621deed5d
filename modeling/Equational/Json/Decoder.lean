import Equational.Json.Reader

namespace Equational.Json

abbrev Decoder (α : Type) := Draft → Except Fault α

namespace Decoder

/-- What to make of a value that is none of those wanted. -/
def refuse {α : Type} : Decoder α
  | .broken f _ => .error f
  | _ => .error .mismatched

def text : Decoder String
  | .str s => .ok s
  | d => refuse d

/-- A string of one character. -/
def character : Decoder Char
  | .str s =>
    match s.toList with
    | [c] => .ok c
    | _ => .error .mismatched
  | d => refuse d

/-- An integer within bounds, both included. -/
def integer (least greatest : Int) : Decoder Int
  | .int n => if least ≤ n ∧ n ≤ greatest then .ok n else .error .mismatched
  | d => refuse d

/-- A number without sign of at most so many bits. -/
def natural (bits : Nat) : Decoder Nat := fun d =>
  Int.toNat <$> integer 0 (Nat.pow 2 bits - 1 : Nat) d

def uint8 : Decoder UInt8 := fun d => UInt8.ofNat <$> natural 8 d

def uint32 : Decoder UInt32 := fun d => UInt32.ofNat <$> natural 32 d

def boolean : Decoder Bool
  | .bool b => .ok b
  | d => refuse d

def option {α : Type} (decode : Decoder α) : Decoder (Option α)
  | .null => .ok none
  | d => some <$> decode d

def list {α : Type} (decode : Decoder α) : Decoder (List α)
  | .arr items closed => do
    let as ← items.mapM decode
    if closed then return as else throw .truncated
  | .sealed (.arr _ _) => .error .malformed
  | d => refuse d

end Decoder

/-- Interprets a whole text. Nothing but white space may follow its value. -/
def Document.decode {α : Type} (doc : Document) (decode : Decoder α) : Except Fault α := do
  let a ← decode doc.body
  if doc.trailing then throw .malformed else return a

end Equational.Json
