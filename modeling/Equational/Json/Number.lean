import Equational.Json.Draft

/-!
Numbers in a JSON text. Only integers of 64 bits are kept. Any other number is a fraction, unless
it is too large for a binary number of double precision.
-/

namespace Equational.Json

/-- A part of a text that has been read, and the rest of the text if reading can go on. -/
abbrev Reading := Draft × Option (List Char)

def stop (f : Fault) : Reading := (.fault f, none)

/-- The text ends within a number. Those who pass over the number take that for a bad number. -/
def stopInNumber : List Char → Reading
  | [] => (.broken .truncated (some .malformed), none)
  | _ => stop .malformed

def digitValue (c : Char) : Nat := c.toNat - '0'.toNat

/-- The nearest number with 53 binary digits, the even one of two. -/
def round53 (n : Nat) : Nat :=
  if n < Nat.pow 2 53 then n
  else
    let unit := Nat.pow 2 (n.log2 - 52)
    let up := 2 * (n % unit) > unit || (2 * (n % unit) == unit && n / unit % 2 == 1)
    (n / unit + if up then 1 else 0) * unit

/-- The greatest exponent of a power of ten within the range of double precision. -/
def maxPower : Int := 308

/-- A product of a significand and a power of ten is too large for double precision, when both are
rounded before they are multiplied. -/
def overflows (significand : Nat) (exponent : Int) : Bool :=
  if exponent > maxPower then significand != 0
  else if exponent < 0 then false
  else round53 significand * round53 (Nat.pow 10 exponent.toNat) ≥ Nat.pow 2 1024 - Nat.pow 2 970

def fractionOrFault (significand : Nat) (exponent : Int) : Draft :=
  if overflows significand exponent then .broken .malformed none else .fraction

/-- The digits of a significand that fit into 64 bits, how many more there are, and whether there
are any more. -/
structure Significand where
  value : Nat
  dropped : Nat
  full : Bool

namespace Significand

def push (s : Significand) (c : Char) : Significand :=
  let n := 10 * s.value + digitValue c
  if s.full || n ≥ Nat.pow 2 64 then { s with dropped := s.dropped + 1, full := true }
  else { s with value := n }

def ofDigits (s : Significand) (digits : List Char) : Significand := digits.foldl push s

end Significand

/-- An exponent and the number it ends. The text begins behind the letter `e`. -/
def readExponent (significand : Nat) (exponent : Int) (cs : List Char) : Reading :=
  let (negative, cs) : Bool × List Char :=
    match cs with
    | '+' :: cs => (false, cs)
    | '-' :: cs => (true, cs)
    | _ => (false, cs)
  match cs.takeWhile Char.isDigit with
  | [] => stopInNumber cs
  | digits =>
    let n : Nat := digits.foldl (fun n c => 10 * n + digitValue c) 0
    (fractionOrFault significand (if negative then exponent - n else exponent + n),
      some (cs.dropWhile Char.isDigit))

/-- The digits behind a point and what follows them. -/
def readDecimals (significand : Nat) (exponent : Int) (cs : List Char) : Reading :=
  let digits := cs.takeWhile Char.isDigit
  let rest := cs.dropWhile Char.isDigit
  if digits.isEmpty then stopInNumber rest
  else
    let s := Significand.ofDigits ⟨significand, 0, false⟩ digits
    let exponent := exponent - (digits.length - s.dropped : Nat)
    match rest with
    | 'e' :: rest => readExponent s.value exponent rest
    | 'E' :: rest => readExponent s.value exponent rest
    | _ => (fractionOrFault s.value exponent, some rest)

/-- An integer of 64 bits, with a sign if it is negative and without one if not. -/
def integerOrFraction (negative : Bool) (s : Significand) : Draft :=
  if s.full then fractionOrFault s.value s.dropped
  else if !negative then .int s.value
  else if s.value = 0 || s.value > Nat.pow 2 63 then .fraction
  else .int (-s.value)

/-- A number behind its sign. -/
def readNumber (negative : Bool) (cs : List Char) : Reading :=
  let digits := cs.takeWhile Char.isDigit
  let rest := cs.dropWhile Char.isDigit
  if digits.isEmpty then stopInNumber rest
  else if digits.head? = some '0' && digits.length > 1 then stop .malformed
  else
    let s := Significand.ofDigits ⟨0, 0, false⟩ digits
    match rest with
    | '.' :: rest => readDecimals s.value s.dropped rest
    | 'e' :: rest => readExponent s.value s.dropped rest
    | 'E' :: rest => readExponent s.value s.dropped rest
    | _ => (integerOrFraction negative s, some rest)

end Equational.Json
