import Equational.Json.Decoder

/-!
Records are values with named fields. They are written as objects, where keys of no field are
passed over and a field may come only once, or as arrays that list the fields in order. A record
decoder is put together from its fields; `σ` holds what has been read of them so far.
-/

namespace Equational.Json

structure Record (σ α : Type) where
  /-- No field has been read. -/
  start : σ
  /-- Reads a member of an object, if its key belongs to a field. -/
  member? : String → Draft → σ → Option (Except Fault σ)
  /-- Puts the fields together. -/
  finish : σ → Except Fault α
  /-- Reads the fields off the front of an array, which may not be closed behind its items. -/
  items : List Draft → Bool → Except Fault (α × List Draft)

namespace Record

variable {σ τ α β : Type}

/-- A field under one of several names, with a value in case it is left out. -/
def fieldOf (names : List String) (decode : Decoder α) (default : Option α) :
    Record (Option α) α where
  start := none
  member? key d read :=
    if names.contains key then
      some (match read with
        | some _ => .error .mismatched
        | none => some <$> decode d)
    else none
  finish read :=
    match read.or default with
    | some a => .ok a
    | none => .error .mismatched
  items ds closed :=
    match ds, closed, default with
    | d :: ds, _, _ => (fun a => (a, ds)) <$> decode d
    | [], false, _ => .error .truncated
    | [], true, some a => .ok (a, [])
    | [], true, none => .error .mismatched

/-- A field that has to be there. -/
def field (name : String) (decode : Decoder α) : Record (Option α) α :=
  fieldOf [name] decode none

/-- A field that may be left out. -/
def fieldD (name : String) (decode : Decoder α) (default : α) : Record (Option α) α :=
  fieldOf [name] decode (some default)

/-- The fields of one record and then those of another. -/
def and (r : Record σ α) (s : Record τ β) : Record (σ × τ) (α × β) where
  start := (r.start, s.start)
  member? key d read :=
    match r.member? key d read.1 with
    | some x => some ((fun a => (a, read.2)) <$> x)
    | none => (s.member? key d read.2).map fun x => (fun b => (read.1, b)) <$> x
  finish read := do
    let a ← r.finish read.1
    let b ← s.finish read.2
    return (a, b)
  items ds closed := do
    let (a, ds) ← r.items ds closed
    let (b, ds) ← s.items ds closed
    return ((a, b), ds)

def map (r : Record σ α) (f : α → β) : Record σ β where
  start := r.start
  member? := r.member?
  finish read := f <$> r.finish read
  items ds closed := (fun (a, rest) => (f a, rest)) <$> r.items ds closed

/-- Reads the members of an object in order. -/
def members (r : Record σ α) (read : σ) : List (Option String × Draft) → Except Fault σ
  | [] => .ok read
  | (none, _) :: _ => .error .malformed
  | (some key, d) :: ms =>
    match r.member? key d read with
    | some (.ok read) => r.members read ms
    | some (.error f) => .error f
    | none => do
      d.pass
      r.members read ms

def decode (r : Record σ α) : Decoder α
  | .obj ms fault => do
    let read ← r.members r.start ms
    match fault with
    | some f => throw f
    | none => r.finish read
  | .arr ds closed => do
    let (a, rest) ← r.items ds closed
    if !rest.isEmpty then throw .malformed
    if closed then return a else throw .truncated
  | .sealed _ => .error .malformed
  | d => Decoder.refuse d

end Record

end Equational.Json
