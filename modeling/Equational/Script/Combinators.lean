import Equational.Script.Command

/-!
Command lines read by parser combinators. Alternatives are tried one after the other until one of
them is committed to, so there is more than one way to reject a text. The combinators themselves
are left open: they are any that keep their laws.
-/

namespace Equational

/-- How a text is rejected. After an error another reader may be tried, a failure is final, and an
incomplete text may still go on. -/
inductive Rejection (ε : Type) where
  | error (e : ε)
  | failure (e : ε)
  | incomplete
deriving DecidableEq

namespace Rejection

variable {ε : Type}

/-- No other reader is tried any more. -/
def final : Rejection ε → Rejection ε
  | error e => failure e
  | r => r

def map (f : ε → ε) : Rejection ε → Rejection ε
  | error e => error (f e)
  | failure e => failure (f e)
  | incomplete => incomplete

end Rejection

/-- A reader takes something off the front of a text, and gives the rest along with it. -/
abbrev LineReader (ε α : Type) := List Char → Except (Rejection ε) (List Char × α)

namespace LineReader

variable {ε α : Type}

/-- The reader leaves the text to other ones. -/
def Passes (r : LineReader ε α) (cs : List Char) : Prop := ∃ e, r cs = .error (.error e)

/-- The reader leaves all texts that it rejects to other ones. -/
def Recovers (r : LineReader ε α) : Prop := ∀ cs x, r cs = .error x → ∃ e, x = .error e

end LineReader

/-- The text `a` ends, and `rest` begins, at the first place where `s` begins. -/
structure EndsBefore (s cs a rest : List Char) : Prop where
  whole : cs = a ++ rest
  begins : s <+: rest
  least (a' rest' : List Char) : cs = a' ++ rest' → s <+: rest' → a.length ≤ a'.length

structure Combinators (ε : Type) where
  tag (s : List Char) : LineReader ε (List Char)
  space0 : LineReader ε (List Char)
  space1 : LineReader ε (List Char)
  char (c : Char) : LineReader ε Char
  takeTill1 (p : Char → Bool) : LineReader ε (List Char)
  takeUntil (s : List Char) : LineReader ε (List Char)
  rest : LineReader ε (List Char)
  verify {α : Type} (r : LineReader ε α) (p : α → Bool) : LineReader ε α
  map {α β : Type} (r : LineReader ε α) (f : α → β) : LineReader ε β
  separatedPair {α β γ : Type} (l : LineReader ε α) (mark : LineReader ε β)
    (r : LineReader ε γ) : LineReader ε (α × γ)
  alt {α : Type} (rs : List (LineReader ε α)) : LineReader ε α
  context {α : Type} (name : String) (r : LineReader ε α) : LineReader ε α
  cut {α : Type} (r : LineReader ε α) : LineReader ε α
  allConsuming {α : Type} (r : LineReader ε α) : LineReader ε α

namespace Combinators

variable {ε : Type}

/-- What the combinators do. -/
structure Lawful (K : Combinators ε) : Prop where
  tag_ok {s cs rest a : List Char} : K.tag s cs = .ok (rest, a) ↔ cs = s ++ rest ∧ a = s
  tag_recovers (s : List Char) : (K.tag s).Recovers
  space0_eq (cs : List Char) :
    K.space0 cs = .ok (cs.dropWhile Command.isGap, cs.takeWhile Command.isGap)
  space1_ok {cs rest a : List Char} : K.space1 cs = .ok (rest, a) ↔
    a ≠ [] ∧ cs.takeWhile Command.isGap = a ∧ cs.dropWhile Command.isGap = rest
  space1_recovers : K.space1.Recovers
  char_ok {c a : Char} {cs rest : List Char} : K.char c cs = .ok (rest, a) ↔ cs = c :: rest ∧ a = c
  char_recovers (c : Char) : (K.char c).Recovers
  takeTill1_ok {p : Char → Bool} {cs rest a : List Char} : K.takeTill1 p cs = .ok (rest, a) ↔
    a ≠ [] ∧ cs.takeWhile (!p ·) = a ∧ cs.dropWhile (!p ·) = rest
  takeTill1_recovers (p : Char → Bool) : (K.takeTill1 p).Recovers
  takeUntil_ok {s cs rest a : List Char} :
    K.takeUntil s cs = .ok (rest, a) ↔ EndsBefore s cs a rest
  takeUntil_recovers (s : List Char) : (K.takeUntil s).Recovers
  rest_eq (cs : List Char) : K.rest cs = .ok ([], cs)
  verify_ok {α : Type} {r : LineReader ε α} {p : α → Bool} {cs rest : List Char} {a : α} :
    K.verify r p cs = .ok (rest, a) ↔ r cs = .ok (rest, a) ∧ p a = true
  verify_error {α : Type} {r : LineReader ε α} {p : α → Bool} {cs : List Char} {x} :
    K.verify r p cs = .error x → r cs = .error x ∨ ∃ e, x = .error e
  map_eq {α β : Type} (r : LineReader ε α) (f : α → β) (cs : List Char) :
    K.map r f cs = (r cs).map fun (rest, a) => (rest, f a)
  separatedPair_eq {α β γ : Type} (l : LineReader ε α) (mark : LineReader ε β)
    (r : LineReader ε γ) (cs : List Char) : K.separatedPair l mark r cs = do
      let (cs, a) ← l cs
      let (cs, _) ← mark cs
      let (cs, b) ← r cs
      return (cs, (a, b))
  /-- The first reader that does not leave the text to the next one decides. -/
  alt_eq {α : Type} {before after : List (LineReader ε α)} {r : LineReader ε α} {cs : List Char} :
    (∀ q ∈ before, q.Passes cs) → ¬ r.Passes cs → K.alt (before ++ r :: after) cs = r cs
  alt_passes {α : Type} {rs : List (LineReader ε α)} {cs : List Char} :
    (∀ r ∈ rs, r.Passes cs) → (K.alt rs).Passes cs
  /-- The context is told in the error, and changes nothing else. -/
  context_eq {α : Type} (name : String) (r : LineReader ε α) (cs : List Char) :
    ∃ f, K.context name r cs = (r cs).mapError (Rejection.map f)
  cut_eq {α : Type} (r : LineReader ε α) (cs : List Char) :
    K.cut r cs = (r cs).mapError Rejection.final
  allConsuming_ok {α : Type} {r : LineReader ε α} {cs rest : List Char} {a : α} :
    K.allConsuming r cs = .ok (rest, a) ↔ rest = [] ∧ r cs = .ok ([], a)
  allConsuming_error {α : Type} {r : LineReader ε α} {cs : List Char} {x} :
    K.allConsuming r cs = .error x → r cs = .error x ∨ ∃ e, x = .error e

variable (K : Combinators ε)

/-- Two sides with one equality sign between them, neither of them blank. -/
def equation : LineReader ε (String × String) :=
  K.map (K.separatedPair
      (K.verify (K.takeUntil ['=']) fun l => !Command.isBlankText l)
      (K.char '=')
      (K.verify K.rest fun r => !Command.isBlankText r && !r.contains '='))
    fun (l, r) => (Command.part l, Command.part r)

/-- A name up to the first colon, then an equation. -/
def lawBody : LineReader ε Command := fun cs => do
  let (cs, name) ← K.verify (K.takeUntil [':']) (fun name => !Command.isBlankText name) cs
  let (cs, _) ← K.char ':' cs
  let (cs, (lhs, rhs)) ← K.equation cs
  return (cs, .law ⟨Command.part name, none, lhs, rhs, none⟩)

/-- A name without white space, a colon and an expression. -/
def stepBody : LineReader ε Command := fun cs => do
  let (cs, name) ← K.takeTill1 (!Command.isRuleChar ·) cs
  let (cs, _) ← K.space0 cs
  let (cs, _) ← K.char ':' cs
  let (cs, expression) ← K.verify K.rest (fun e => !Command.isBlankText e) cs
  return (cs, .step (String.ofList name) (Command.part expression))

/-- What follows a keyword and the gap behind it. -/
def body : Keyword → LineReader ε Command
  | .theory => K.map (K.takeTill1 Text.isBlank) fun name => .theory (String.ofList name)
  | .law => K.lawBody
  | .prove => K.map K.equation fun (l, r) => .prove l r
  | .step => K.stepBody

/-- A keyword, a gap, and the body that they commit to. -/
def phrase (k : Keyword) : LineReader ε Command := fun cs => do
  let (cs, _) ← K.tag k.text.toList cs
  let (cs, _) ← K.space1 cs
  K.cut (K.body k) cs

/-- The phrase of a keyword, which is told if it is rejected. -/
def alternative (k : Keyword) : LineReader ε Command := K.context k.text (K.phrase k)

/-- A whole command, which nothing may follow. -/
def command : LineReader ε Command :=
  K.cut (K.allConsuming (K.alt (Keyword.all.map K.alternative)))

/-- Reads a line, which may hold no command. -/
def readLine (line : String) : Except (Rejection ε) (Option Command) :=
  match Text.trim line.toList with
  | [] => .ok none
  | c :: cs => if c = '#' then .ok none else (K.command (c :: cs)).map fun (_, r) => some r

end Combinators

/-- What was the matter at a place of a text. -/
inductive Reason where
  | context (name : String)
  | missing (c : Char)
  | other
deriving DecidableEq

namespace Reason

def context? : Reason → Option String
  | context name => some name
  | _ => none

def missing? : Reason → Option Char
  | missing c => some c
  | _ => none

end Reason

/-- The place where reading stopped, and then those that it was reached through. -/
abbrev Trail := List (List Char × Reason)

namespace Trail

/-- What is told about a rejected line: the innermost phrase it was read as, and the place where
reading stopped. -/
def message (t : Trail) : String :=
  (match t.findSome? (·.2.context?) with
    | some name => "in " ++ name ++ ": "
    | none => "") ++
  match t with
  | [] => "invalid command"
  | (cs, reason) :: _ =>
    let excerpt := Text.quote (cs.take LineError.excerptLength)
    match reason.missing? with
    | some c => "expected '" ++ String.singleton c ++ "' at " ++ excerpt
    | none => if cs.isEmpty then "unexpected end of line" else "unexpected " ++ excerpt

/-- Of two trails the one that stopped further on, and the second if neither did. -/
def further : Trail → Trail → Trail
  | t@((cs, _) :: _), u@((ds, _) :: _) =>
    if (String.ofList cs).utf8ByteSize < (String.ofList ds).utf8ByteSize then t else u
  | t, [] => t
  | [], u => u

end Trail

namespace Combinators

/-- A reader that stops where it began, and leaves the text to other ones. -/
def stop {α : Type} (reason : Reason) : LineReader Trail α :=
  fun cs => .error (.error [(cs, reason)])

/-- The longest run of characters that pass, which is not empty. -/
def takeWhile1 (p : Char → Bool) : LineReader Trail (List Char) := fun cs =>
  if cs.takeWhile p ≠ [] then .ok (cs.dropWhile p, cs.takeWhile p) else stop .other cs

/-- The text before the first place where `s` begins, and the text from there on. -/
def splitBefore (s : List Char) : List Char → Option (List Char × List Char)
  | [] => if s = [] then some ([], []) else none
  | c :: cs =>
    if s.isPrefixOf (c :: cs) then some ([], c :: cs)
    else (splitBefore s cs).map fun (a, rest) => (c :: a, rest)

/-- Tries readers one after the other. If all of them leave the text, the error that got furthest
is kept, `t` being the one that did so before. -/
def firstOf {α : Type} (t : Trail) : List (LineReader Trail α) → LineReader Trail α
  | [], cs => .error (.error (t ++ [(cs, .other)]))
  | r :: rs, cs =>
    match r cs with
    | .error (.error u) => firstOf (t.further u) rs cs
    | y => y

/-- Combinators whose errors are trails. -/
def trailing : Combinators Trail where
  tag s cs := if s.isPrefixOf cs then .ok (cs.drop s.length, s) else stop .other cs
  space0 cs := .ok (cs.dropWhile Command.isGap, cs.takeWhile Command.isGap)
  space1 := takeWhile1 Command.isGap
  char c cs := if cs.head? = some c then .ok (cs.tail, c) else stop (.missing c) cs
  takeTill1 p := takeWhile1 (!p ·)
  takeUntil s cs :=
    match splitBefore s cs with
    | some (a, rest) => .ok (rest, a)
    | none => stop .other cs
  rest cs := .ok ([], cs)
  verify r p cs := do
    let (rest, a) ← r cs
    if p a then return (rest, a) else stop .other cs
  map r f cs := (r cs).map fun (rest, a) => (rest, f a)
  separatedPair l mark r cs := do
    let (cs, a) ← l cs
    let (cs, _) ← mark cs
    let (cs, b) ← r cs
    return (cs, (a, b))
  alt rs cs := firstOf [] rs cs
  context name r cs := (r cs).mapError (Rejection.map (· ++ [(cs, .context name)]))
  cut r cs := (r cs).mapError Rejection.final
  allConsuming r cs := do
    let (rest, a) ← r cs
    if rest = [] then return (rest, a) else stop .other rest

end Combinators

end Equational
