import Equational.Formula.Nesting

/-!
From tokens to a term. There is no precedence: an operand is a letter, a constant or a group, with
any unary operators around it, and a formula is one operand or two with one binary operator
between them. Where unary operators stand on both sides of an operand, the one that comes first in
the signature is applied last.
-/

namespace Equational

/-- A piece whose part in a formula is known. -/
inductive Item where
  | operand (t : Term)
  | before (op : Char)
  | behind (op : Char)
  | between (op : Char)

namespace Item

def before? : Item → Option Char
  | before c => some c
  | _ => none

def behind? : Item → Option Char
  | behind c => some c
  | _ => none

/-- The results of `f` on the longest run of items for which there is one, and the other items. -/
def spanMap (f : Item → Option Char) : List Item → List Char × List Item
  | [] => ([], [])
  | i :: is =>
    match f i with
    | some c => let (cs, rest) := spanMap f is; (c :: cs, rest)
    | none => ([], i :: is)

end Item

namespace Signature

variable (σ : Signature)

/-- The symbol `c` comes before `d` in the signature. -/
def precedes (c d : Char) : Bool := σ.position c < σ.position d

def applyAll (ops : List Char) (t : Term) : Term := ops.foldr (fun c u => .node c [u]) t

/-- Applies the operators written before an operand and those written behind it, each list from
the outermost operator inward. Of two that could be applied last the first in the signature is. -/
def applyUnary (behind : List Char) (t : Term) : List Char → Term
  | [] => applyAll behind t
  | c :: before =>
    applyAll (behind.takeWhile (σ.precedes · c))
      (.node c [applyUnary (behind.dropWhile (σ.precedes · c)) t before])

/-- The operand at the front of a list of items, with all unary operators around it. -/
def frontOperand (items : List Item) : Option (Term × List Item) :=
  let (before, rest) := Item.spanMap Item.before? items
  match rest with
  | .operand t :: rest =>
    let (behind, rest) := Item.spanMap Item.behind? rest
    some (σ.applyUnary behind.reverse t before, rest)
  | _ => none

/-- The term that a whole list of items stands for. -/
def assemble (items : List Item) : Option Term :=
  match σ.frontOperand items with
  | some (t, []) => some t
  | some (t, .between c :: rest) =>
    match σ.frontOperand rest with
    | some (u, []) => some (.node c [t, u])
    | _ => none
  | _ => none

/-- The part that a token plays by itself. -/
def itemOfToken (c : Char) : Option Item :=
  if Term.isLetter c then some (.operand (.leaf c))
  else match σ.fixity? c with
    | some .constant => some (.operand (.leaf c))
    | some .before => some (.before c)
    | some .behind => some (.behind c)
    | some .between => some (.between c)
    | none => none

mutual

def itemOf : Piece → Option Item
  | .token c => σ.itemOfToken c
  | .group ps =>
    match itemsOf ps with
    | some items => (σ.assemble items).map .operand
    | none => none

def itemsOf : List Piece → Option (List Item)
  | [] => some []
  | p :: ps =>
    match itemOf p, itemsOf ps with
    | some i, some is => some (i :: is)
    | _, _ => none

end

/-- The term that pieces stand for. -/
def termOf (ps : List Piece) : Option Term := (σ.itemsOf ps).bind σ.assemble

/-- The term that tokens stand for. A formula counts as standing in parentheses of its own, so it
may close one group that it has not opened before it is unbalanced. The same is read by `descend`,
which takes tokens apart from both ends. -/
def readTokens (cs : List Char) : Except ReadError Term :=
  match parenthesisFault? 0 ('(' :: cs ++ [')']) with
  | some e => .error e
  | none =>
    match (Piece.nest cs).bind σ.termOf with
    | some t => .ok t
    | none => .error .noTerm

/-- Reads a formula as it is typed. -/
def read (formula : String) : Except ReadError Term := do
  σ.readTokens (← σ.tokens formula)

end Signature

end Equational
