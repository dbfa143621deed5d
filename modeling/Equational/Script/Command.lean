import Equational.Text.Lines
import Equational.Text.Quoted
import Equational.Theory.Rule

/-!
Scripts hold one command a line. This module reads and writes such lines: a keyword, then blanks
or tabs, then what the command is about. Empty lines and lines that begin with `#` hold no command.
-/

namespace Equational

inductive Command where
  /-- Selects a theory. -/
  | theory (name : String)
  /-- Declares a law for the problems that follow. -/
  | law (l : Law)
  /-- Begins a proof of an equation. -/
  | prove (lhs rhs : String)
  /-- Adds a step to the proof. -/
  | step (rule expression : String)
deriving DecidableEq

namespace Command

/-- The line of a command. -/
def line : Command → String
  | theory name => "theory " ++ name
  | law l => "law " ++ l.name ++ ": " ++ l.lhs ++ " = " ++ l.rhs
  | prove lhs rhs => "prove " ++ lhs ++ " = " ++ rhs
  | step rule expression => "step " ++ rule ++ ": " ++ expression

end Command

inductive Keyword where
  | theory
  | law
  | prove
  | step
deriving DecidableEq

namespace Keyword

def all : List Keyword := [theory, law, prove, step]

def text : Keyword → String
  | theory => "theory"
  | law => "law"
  | prove => "prove"
  | step => "step"

/-- The keyword that a line begins with. -/
def front? (cs : List Char) : Option Keyword := all.find? (·.text.toList.isPrefixOf cs)

end Keyword

/-- Why a line holds no command: the keyword it was read under, a character that is missing, and
the rest of the line where reading stopped. -/
structure LineError where
  keyword : Option Keyword
  missing : Option Char
  rest : List Char
deriving DecidableEq

namespace LineError

/-- How much of a line is quoted in a message. -/
def excerptLength : Nat := 20

def excerpt (e : LineError) : String := Text.quote (e.rest.take excerptLength)

def message (e : LineError) : String :=
  (match e.keyword with
    | some k => "in " ++ k.text ++ ": "
    | none => "") ++
  match e.missing with
  | some c => "expected '" ++ String.singleton c ++ "' at " ++ e.excerpt
  | none => if e.rest.isEmpty then "unexpected end of line" else "unexpected " ++ e.excerpt

end LineError

namespace Command

/-- Blanks and tabs, which alone may stand between the parts of a command. -/
def isGap (c : Char) : Bool := c == ' ' || c == '\t'

def isBlankText (cs : List Char) : Bool := cs.all Text.isBlank

/-- The text of a part of a line, without the white space around it. -/
def part (cs : List Char) : String := String.ofList (Text.trim cs)

/-- Two sides with one equality sign between them, neither of them blank. -/
def readEquation (k : Keyword) (cs : List Char) : Except LineError (String × String) :=
  match Text.cut '=' cs with
  | none => .error ⟨k, none, cs⟩
  | some (l, r) =>
    if isBlankText l then .error ⟨k, none, cs⟩
    else if isBlankText r || r.contains '=' then .error ⟨k, none, r⟩
    else .ok (part l, part r)

/-- A name without white space, and nothing behind it. -/
def readTheory (cs : List Char) : Except LineError Command :=
  match cs.takeWhile (!Text.isBlank ·), cs.dropWhile (!Text.isBlank ·) with
  | [], _ => .error ⟨some .theory, none, cs⟩
  | c :: name, [] => .ok (.theory (String.ofList (c :: name)))
  | _, rest => .error ⟨none, none, rest⟩

/-- A name up to the first colon, then an equation. -/
def readLaw (cs : List Char) : Except LineError Command :=
  match Text.cut ':' cs with
  | none => .error ⟨some .law, none, cs⟩
  | some (name, rest) =>
    if isBlankText name then .error ⟨some .law, none, cs⟩
    else (readEquation .law rest).map fun (l, r) => .law ⟨part name, none, l, r, none⟩

def readProve (cs : List Char) : Except LineError Command :=
  (readEquation .prove cs).map fun (l, r) => .prove l r

/-- A character of the name of a rule in a step. -/
def isRuleChar (c : Char) : Bool := c != ':' && !Text.isBlank c

/-- A name without white space, a colon and an expression. -/
def readStep (cs : List Char) : Except LineError Command :=
  match cs.takeWhile isRuleChar, (cs.dropWhile isRuleChar).dropWhile isGap with
  | [], _ => .error ⟨some .step, none, cs⟩
  | c :: name, ':' :: expression =>
    if isBlankText expression then .error ⟨some .step, none, expression⟩
    else .ok (.step (String.ofList (c :: name)) (part expression))
  | _, rest => .error ⟨some .step, some ':', rest⟩

/-- What follows a keyword and the gap behind it. -/
def readBody : Keyword → List Char → Except LineError Command
  | .theory => readTheory
  | .law => readLaw
  | .prove => readProve
  | .step => readStep

/-- Reads a line that is not empty, without white space around it. Where no keyword is found the
last one is missed. -/
def readTrimmed (cs : List Char) : Except LineError Command :=
  match Keyword.front? cs with
  | none => .error ⟨some .step, none, cs⟩
  | some k =>
    let rest := cs.drop k.text.toList.length
    if rest.head?.any isGap then readBody k (rest.dropWhile isGap) else .error ⟨some k, none, rest⟩

/-- Reads a line, which may hold no command. -/
def ofLine (line : String) : Except LineError (Option Command) :=
  match Text.trim line.toList with
  | [] => .ok none
  | c :: cs => if c = '#' then .ok none else (readTrimmed (c :: cs)).map some

end Command

end Equational
