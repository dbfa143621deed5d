import Equational.Json.Draft

namespace Equational.Json

/-- A string that has come to its closing quote, with its characters if its escapes stand for some,
or one that has not, with the faults for those who want it and for those who pass over it. -/
inductive QuotedReading where
  | closed (text : Option (List Char)) (rest : List Char)
  | unclosed (wanted passed : Fault)

def hexValue? (c : Char) : Option Nat :=
  if c.isDigit then some (c.toNat - '0'.toNat)
  else if 'a' ≤ c ∧ c ≤ 'f' then some (c.toNat - 'a'.toNat + 10)
  else if 'A' ≤ c ∧ c ≤ 'F' then some (c.toNat - 'A'.toNat + 10)
  else none

def utf8Size (cs : List Char) : Nat := cs.foldl (fun n c => n + c.utf8Size) 0

/-- The unit that four digits stand for. Where four bytes are left they have to be such digits. -/
def readUnit (cs : List Char) : Except Fault (Nat × List Char) :=
  match (cs.take 4).mapM hexValue? with
  | some [a, b, c, d] => .ok (((a * 16 + b) * 16 + c) * 16 + d, cs.drop 4)
  | _ => .error (if utf8Size (cs.take 4) < 4 then .truncated else .malformed)

def isLeading (n : Nat) : Bool := 0xD800 ≤ n && n ≤ 0xDBFF

def isTrailing (n : Nat) : Bool := 0xDC00 ≤ n && n ≤ 0xDFFF

/-- The character of a pair of units. -/
def ofPair (n m : Nat) : Char := Char.ofNat (0x10000 + (n - 0xD800) * 0x400 + (m - 0xDC00))

/-- What one escape stands for, and the rest. The text begins behind the backslash. -/
def readEscape : List Char → Except Fault (Option Char × List Char)
  | [] => .error .truncated
  | 'u' :: cs => do
    let (n, cs) ← readUnit cs
    if isTrailing n then return (none, cs)
    else if isLeading n then
      match cs with
      | '\\' :: 'u' :: cs => do
        let (m, cs) ← readUnit cs
        return (if isTrailing m then some (ofPair n m) else none, cs)
      | ['\\'] => throw .truncated
      | [] => throw .truncated
      | _ => return (none, cs)
    else return (some (Char.ofNat n), cs)
  | '"' :: cs => .ok (some '"', cs)
  | '\\' :: cs => .ok (some '\\', cs)
  | '/' :: cs => .ok (some '/', cs)
  | 'b' :: cs => .ok (some '\x08', cs)
  | 'f' :: cs => .ok (some '\x0c', cs)
  | 'n' :: cs => .ok (some '\n', cs)
  | 'r' :: cs => .ok (some '\r', cs)
  | 't' :: cs => .ok (some '\t', cs)
  | _ => .error .malformed

/-- The characters of a string up to its closing quote. The characters before it are in reverse,
and missing if they included half a pair. Each of the `fuel` steps reads a character. -/
def readQuoted (fuel : Nat) (before : Option (List Char)) (cs : List Char) : QuotedReading :=
  let unclosed (f : Fault) : QuotedReading := .unclosed (if before.isSome then f else .malformed) f
  match fuel, cs with
  | 0, _ => unclosed .truncated
  | _, [] => unclosed .truncated
  | n + 1, c :: cs =>
    if c = '"' then .closed (before.map List.reverse) cs
    else if c = '\\' then
      match readEscape cs with
      | .ok (some d, rest) => readQuoted n (before.map (d :: ·)) rest
      | .ok (none, rest) => readQuoted n none rest
      | .error f => unclosed f
    else if c.toNat < 0x20 then unclosed .malformed
    else readQuoted n (before.map (c :: ·)) cs

/-- Reads a string behind its opening quote. -/
def quotedAt (cs : List Char) : QuotedReading := readQuoted (cs.length + 1) (some []) cs

end Equational.Json
