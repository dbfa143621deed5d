import Equational.Formula.Token

/-!
Reading by recursive descent. Tokens are taken apart from both ends: an operand loses its outermost
unary operator or its parentheses, and a formula that is no operand is split at its only binary
operator. Operators are tried in the order of the signature, and one that leaves no operand behind
is passed over. Depths have no bound, and a count in 32 bits gives another answer only from 2 ^ 31
open groups on.
-/

namespace Equational

/-- How deep the tokens behind `c` stand. -/
def depthBehind (depth : Int) (c : Char) : Int :=
  if c = '(' then depth + 1 else if c = ')' then depth - 1 else depth

/-- Goes through the tokens from the left and stops at a parenthesis that closes nothing. -/
def checkParentheses (depth : Int) : List Char → Except ReadError Unit
  | [] => if 0 < depth then .error .unclosed else .ok ()
  | c :: cs =>
    if depthBehind depth c < 0 then .error .unopened else checkParentheses (depthBehind depth c) cs

/-- The first token behind which no group is open is the last one. -/
def encloses (depth : Int) : List Char → Bool
  | [] => false
  | c :: cs =>
    if depthBehind depth c = 0 then cs.isEmpty else encloses (depthBehind depth c) cs

namespace Signature

variable (σ : Signature)

/-- Where the only binary operator outside of all groups stands. The tokens begin at place `i`, and
`found` is the place of an operator before them. -/
def splitPlace? (depth : Int) (i : Nat) (found : Option Nat) : List Char → Option Nat
  | [] => found
  | c :: cs =>
    if c = '(' then splitPlace? (depth + 1) (i + 1) found cs
    else if c = ')' then splitPlace? (depth - 1) (i + 1) found cs
    else if depth = 0 ∧ σ.fixity? c = some .between then
      match found with
      | some _ => none
      | none => splitPlace? depth (i + 1) (some i) cs
    else splitPlace? depth (i + 1) found cs

mutual

def descendOperand (cs : List Char) : Option Term :=
  match cs with
  | [] => none
  | [c] =>
    if Term.isLetter c = true ∨ σ.fixity? c = some .constant then some (.leaf c) else none
  | c :: d :: ds =>
    let last := (d :: ds).getLast (List.cons_ne_nil d ds)
    let unary := σ.unaryOperators.findSome? fun s =>
      match s.fixity with
      | .before =>
        if c = s.id then (descendOperand (d :: ds)).map (.node s.id [·]) else none
      | .behind =>
        if last = s.id then (descendOperand (c :: d :: ds).dropLast).map (.node s.id [·]) else none
      | _ => none
    match unary with
    | some t => some t
    | none =>
      if c = '(' ∧ last = ')' ∧ encloses 0 (c :: d :: ds) = true then
        descendFormula (d :: ds).dropLast
      else none
termination_by 2 * cs.length

def descendFormula (cs : List Char) : Option Term :=
  match descendOperand cs with
  | some t => some t
  | none => do
    let i ← σ.splitPlace? 0 0 none cs
    let op ← cs[i]?
    let t ← descendOperand (cs.take i)
    let u ← descendOperand (cs.drop (i + 1))
    return .node op [t, u]
termination_by 2 * cs.length + 1

end

/-- Reads tokens inside parentheses that are put around them. -/
def descend (cs : List Char) : Except ReadError Term := do
  checkParentheses 0 ('(' :: cs ++ [')'])
  match σ.descendOperand ('(' :: cs ++ [')']) with
  | some t => return t
  | none => throw .noTerm

end Signature

end Equational
