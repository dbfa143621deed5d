import Equational.Term.Basic

namespace Equational.Term

mutual

/-- The head before its arguments, one blank between any two heads, as in `| A ! B`. -/
def polish : Term → String
  | node c ts => String.singleton c ++ polishList ts

def polishList : List Term → String
  | [] => ""
  | t :: ts => " " ++ polish t ++ polishList ts

end

mutual

/-- The head behind its arguments, one blank between any two heads, as in `A B ! |`. -/
def reversePolish : Term → String
  | node c ts => reversePolishList ts ++ String.singleton c

def reversePolishList : List Term → String
  | [] => ""
  | t :: ts => reversePolish t ++ " " ++ reversePolishList ts

end

mutual

/-- The bracketed form: `A`, `!(B)`, `(A | B)`, and `f(A, B, C)` from three arguments on. -/
def bracketed : Term → String
  | node c [] => String.singleton c
  | node c [t] => String.singleton c ++ "(" ++ bracketed t ++ ")"
  | node c [t, u] =>
    "(" ++ bracketed t ++ " " ++ String.singleton c ++ " " ++ bracketed u ++ ")"
  | node c (t :: u :: v :: ts) =>
    String.singleton c ++ "(" ++ bracketed t ++ ", " ++ bracketed u ++ ", " ++ bracketed v ++
      bracketedList ts ++ ")"

/-- Each term of the list behind a comma. -/
def bracketedList : List Term → String
  | [] => ""
  | t :: ts => ", " ++ bracketed t ++ bracketedList ts

end

instance : ToString Term := ⟨bracketed⟩

theorem toList_polish (c : Char) (ts : List Term) :
    (node c ts).polish.toList = c :: ts.flatMap fun t => ' ' :: t.polish.toList := by
  have hargs : (polishList ts).toList = ts.flatMap fun t => ' ' :: t.polish.toList := by
    induction ts with
    | nil => rfl
    | cons t ts ih => simp [polishList, ih]
  simp [polish, hargs]

theorem toList_reversePolish (c : Char) (ts : List Term) :
    (node c ts).reversePolish.toList =
      (ts.flatMap fun t => t.reversePolish.toList ++ [' ']) ++ [c] := by
  have hargs : (reversePolishList ts).toList =
      ts.flatMap fun t => t.reversePolish.toList ++ [' '] := by
    induction ts with
    | nil => rfl
    | cons t ts ih => simp [reversePolishList, ih]
  simp [reversePolish, hargs]

theorem toList_bracketed_nil (c : Char) : (node c []).bracketed.toList = [c] := by
  simp [bracketed]

theorem toList_bracketed_singleton (c : Char) (t : Term) :
    (node c [t]).bracketed.toList = c :: '(' :: (t.bracketed.toList ++ [')']) := by
  simp [bracketed]

theorem toList_bracketed_pair (c : Char) (t u : Term) :
    (node c [t, u]).bracketed.toList =
      '(' :: (t.bracketed.toList ++ ' ' :: c :: ' ' :: (u.bracketed.toList ++ [')'])) := by
  simp [bracketed]

end Equational.Term
