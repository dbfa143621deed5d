namespace Equational

/-- Where a symbol stands relative to its operands. -/
inductive Fixity where
  | constant
  | before
  | behind
  | between
deriving DecidableEq, Inhabited

namespace Fixity

def operands : Fixity → Nat
  | constant => 0
  | before => 1
  | behind => 1
  | between => 2

def isUnary (f : Fixity) : Bool := f.operands == 1

/-- The number that stands for a fixity in theory tables. -/
def code : Fixity → Int
  | constant => 0
  | before => 1
  | behind => -1
  | between => 2

def ofCode? (n : Int) : Option Fixity :=
  if n = 0 then some constant
  else if n = 1 then some before
  else if n = -1 then some behind
  else if n = 2 then some between
  else none

theorem ofCode?_code (f : Fixity) : ofCode? f.code = some f := by cases f <;> rfl

end Fixity

/-- What a formula is written for. Only the style `text` is read back. -/
inductive Style where
  | text
  | display
  | markdown
  | latex
deriving DecidableEq, Inhabited

/-- A constant or an operator. `id` is the head it has in terms, `text` what is typed for it. -/
structure Symbol where
  id : Char
  name : String
  display : String
  text : String
  markdown : Option String
  latex : String
  fixity : Fixity
deriving DecidableEq, Inhabited

namespace Symbol

/-- A symbol that looks as it is typed in every style. -/
def plain (id : Char) (name text : String) (fixity : Fixity) : Symbol :=
  ⟨id, name, text, text, none, text, fixity⟩

/-- How a symbol looks. Without a Markdown form of its own it is shown there as it is typed. -/
def form (s : Symbol) : Style → String
  | .text => s.text
  | .display => s.display
  | .markdown => s.markdown.getD s.text
  | .latex => s.latex

end Symbol

/-- How the equality sign of a theory looks. -/
structure EqualitySign where
  display : String
  markdown : String
  latex : String
deriving DecidableEq

namespace EqualitySign

def plain : EqualitySign := ⟨"=", "=", "="⟩

instance : Inhabited EqualitySign := ⟨plain⟩

def form (e : EqualitySign) : Style → String
  | .text => e.display
  | .display => e.display
  | .markdown => e.markdown
  | .latex => e.latex

end EqualitySign

end Equational
