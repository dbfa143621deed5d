import Equational.Signature.Basic

/-!
Formulas are texts that stand for terms. This module turns a formula into tokens: the ids of its
symbols, letters and parentheses. White space is dropped first, wherever it stands, and symbols
are tried in the order of the signature, so an earlier symbol wins over a longer one.
-/

namespace Equational

/-- Why a formula stands for no term. -/
inductive ReadError where
  | unexpected (stray : List Char)
  | unclosed
  | unopened
  | noTerm
deriving DecidableEq

def ReadError.message : ReadError → String
  | unexpected cs =>
    "Unexpected characters: " ++ ",".intercalate (cs.map String.singleton)
  | unclosed => "Unmatched '('"
  | unopened => "Unmatched ')'"
  | noTerm => "Unable to parse expression"

/-- What is found at one place of a formula. -/
inductive Lexeme where
  | token (id : Char)
  | stray (c : Char)
deriving DecidableEq

namespace Lexeme

def token? : Lexeme → Option Char
  | token c => some c
  | stray _ => none

def stray? : Lexeme → Option Char
  | token _ => none
  | stray c => some c

end Lexeme

namespace Signature

variable (σ : Signature)

/-- The first symbol whose text the characters begin with. -/
def symbolAt? (cs : List Char) : Option Symbol :=
  σ.symbols.find? (·.text.toList.isPrefixOf cs)

/-- The lexeme that begins with `c` when `cs` follows, and how many characters of `cs` belong to
it. -/
def lexemeAt (c : Char) (cs : List Char) : Lexeme × Nat :=
  match σ.symbolAt? (c :: cs) with
  | some s => (.token s.id, s.text.toList.length - 1)
  | none => (if Term.isLetter c || c == '(' || c == ')' then .token c else .stray c, 0)

/-- The lexemes from left to right, after `skip` characters that belong to the one before. -/
def scan (skip : Nat) : List Char → List Lexeme
  | [] => []
  | c :: cs =>
    match skip with
    | n + 1 => scan n cs
    | 0 => (σ.lexemeAt c cs).1 :: scan (σ.lexemeAt c cs).2 cs

def lexemes (formula : String) : List Lexeme := σ.scan 0 (Text.squeeze formula.toList)

/-- The tokens of a formula, or all its stray characters. -/
def tokens (formula : String) : Except ReadError (List Char) :=
  match (σ.lexemes formula).filterMap Lexeme.stray? with
  | [] => .ok ((σ.lexemes formula).filterMap Lexeme.token?)
  | c :: cs => .error (.unexpected (c :: cs))

end Signature

end Equational
