import Equational.Signature.Basic
import Equational.Term.Linear

namespace Equational

/-- How a formula is put together, which decides whether it needs parentheses as an operand. -/
inductive Shape where
  | atom
  | unary
  | binary
deriving DecidableEq

/-- A formula and its shape. -/
abbrev Written := String × Shape

namespace Written

def asOperand : Written → String
  | (text, .binary) => "(" ++ text ++ ")"
  | (text, _) => text

end Written

/-- A LaTeX command whose name would run into a letter behind it. -/
def endsInCommand (op : List Char) : Bool :=
  op.head? == some '\\' && op.getLast?.any Term.isLetter

namespace Signature

variable (σ : Signature) (style : Style)

/-- How a head is written: a letter as itself, a symbol in its form for the style, and anything
else as itself. -/
def writeHead (c : Char) : String :=
  if Term.isLetter c then String.singleton c
  else match σ.byId? c with
    | some s => s.form style
    | none => String.singleton c

/-- An operator and the operand it is applied to. In LaTeX a blank keeps the name of a command
apart from a letter behind it. -/
def writeUnary (c : Char) (operand : String) : String :=
  let op := σ.writeHead style c
  if σ.fixity? c = some .behind then operand ++ op
  else if style = .latex && endsInCommand op.toList && operand.toList.head?.any Term.isLetter then
    op ++ " " ++ operand
  else op ++ operand

/-- Writes a term. From three arguments on there is no formula and the bracketed form stands in
for it. -/
def write : Term → Written
  | .node c [] => (σ.writeHead style c, .atom)
  | .node c [t] => (σ.writeUnary style c (write t).asOperand, .unary)
  | .node c [t, u] =>
    ((write t).asOperand ++ " " ++ σ.writeHead style c ++ " " ++ (write u).asOperand, .binary)
  | .node c (t :: u :: v :: ts) => ((Term.node c (t :: u :: v :: ts)).bracketed, .atom)

/-- Writes a term without its shape. -/
def render (t : Term) : String := (σ.write style t).1

/-- Writes two terms with the equality sign of the signature between them. -/
def renderEquation (t u : Term) : String :=
  σ.render style t ++ " " ++ σ.equality.form style ++ " " ++ σ.render style u

end Signature

end Equational
