/-!
Terms are trees. A node carries a head, one character that stands for a variable or a symbol, and
its arguments in order. Nothing here knows which heads a signature allows or how many arguments
they take, so a term need not be well formed.
-/

namespace Equational

inductive Term where
  | node (head : Char) (args : List Term)
deriving Inhabited

namespace Term

def leaf (c : Char) : Term := node c []

def head : Term → Char
  | node c _ => c

def args : Term → List Term
  | node _ ts => ts

mutual

/-- Equality of terms is structural and sensitive to the order of arguments. -/
def decEq : (t u : Term) → Decidable (t = u)
  | node c ts, node d us =>
    if hc : c = d then
      match decEqList ts us with
      | isTrue h => isTrue (by rw [hc, h])
      | isFalse h => isFalse (by intro e; cases e; exact h rfl)
    else isFalse (by intro e; cases e; exact hc rfl)

def decEqList : (ts us : List Term) → Decidable (ts = us)
  | [], [] => isTrue rfl
  | [], _ :: _ => isFalse (by intro e; cases e)
  | _ :: _, [] => isFalse (by intro e; cases e)
  | t :: ts, u :: us =>
    match decEq t u with
    | isFalse h => isFalse (by intro e; cases e; exact h rfl)
    | isTrue h =>
      match decEqList ts us with
      | isTrue h' => isTrue (by rw [h, h'])
      | isFalse h' => isFalse (by intro e; cases e; exact h' rfl)

end

instance : DecidableEq Term := decEq

/-- Variables are the ASCII letters. -/
def isLetter (c : Char) : Bool := c.isAlpha

def isLeaf (t : Term) : Bool := t.args.isEmpty

def isVariable (t : Term) : Bool := t.isLeaf && isLetter t.head

/-- Inside the sides of a rule a lowercase variable stands for any term. -/
def isPatternVariable (t : Term) : Bool := t.isLeaf && t.head.isLower

mutual

/-- The number of nodes. -/
def size : Term → Nat
  | node _ ts => sizeList ts + 1

def sizeList : List Term → Nat
  | [] => 0
  | t :: ts => size t + sizeList ts

end

mutual

/-- The number of edges on the longest way down. -/
def height : Term → Nat
  | node _ ts => heightList ts

/-- One more than the greatest height in the list, zero if it is empty. -/
def heightList : List Term → Nat
  | [] => 0
  | t :: ts => max (height t + 1) (heightList ts)

end

mutual

/-- All nodes as the subterms they are the top of, parents before their arguments. -/
def subterms : Term → List Term
  | node c ts => node c ts :: subtermsList ts

def subtermsList : List Term → List Term
  | [] => []
  | t :: ts => subterms t ++ subtermsList ts

end

mutual

/-- All nodes as the subterms they are the top of, arguments before their parent. -/
def subtermsUp : Term → List Term
  | node c ts => subtermsUpList ts ++ [node c ts]

def subtermsUpList : List Term → List Term
  | [] => []
  | t :: ts => subtermsUp t ++ subtermsUpList ts

end

mutual

/-- Changes a state at every node, at the arguments before their parent. -/
def visit {α : Type} (f : α → Term → α) : Term → α → α
  | node c ts, a => f (visitList f ts a) (node c ts)

def visitList {α : Type} (f : α → Term → α) : List Term → α → α
  | [], a => a
  | t :: ts, a => visitList f ts (visit f t a)

end

mutual

/-- Puts the nodes with a property behind those found so far, parents before their arguments. -/
def collect (p : Term → Bool) : Term → List Term → List Term
  | node c ts, found =>
    collectList p ts (if p (node c ts) then found ++ [node c ts] else found)

def collectList (p : Term → Bool) : List Term → List Term → List Term
  | [], found => found
  | t :: ts, found => collectList p ts (collect p t found)

end

/-- The nodes with a property, parents before their arguments. -/
def find (p : Term → Bool) (t : Term) : List Term := t.collect p []

def leaves (t : Term) : List Term := t.find isLeaf

/-- Puts a character into an increasing list that is to hold it once. -/
def insertLetter (c : Char) : List Char → List Char
  | [] => [c]
  | d :: ds => if c < d then c :: d :: ds else if c = d then d :: ds else d :: insertLetter c ds

/-- The variables of a term, in increasing order and without repetition. -/
def letters (t : Term) : List Char :=
  t.visit (fun cs u => if u.isVariable then insertLetter u.head cs else cs) []

mutual

/-- Replaces the occurrences of a term from the top down. What has been put in is not searched
again. -/
def replace : (t target replacement : Term) → Term
  | node c ts, target, replacement =>
    if node c ts = target then replacement else node c (replaceList ts target replacement)

def replaceList : (ts : List Term) → (target replacement : Term) → List Term
  | [], _, _ => []
  | t :: ts, target, replacement =>
    replace t target replacement :: replaceList ts target replacement

end

mutual

/-- Terms are ordered by their heads, then by their arguments as words in a dictionary. -/
def order : Term → Term → Ordering
  | node c ts, node d us => (compare c d).then (orderList ts us)

def orderList : List Term → List Term → Ordering
  | [], [] => .eq
  | [], _ :: _ => .lt
  | _ :: _, [] => .gt
  | t :: ts, u :: us => (order t u).then (orderList ts us)

end

instance : Ord Term := ⟨order⟩

theorem subtermsList_eq (ts : List Term) : subtermsList ts = ts.flatMap subterms := by
  induction ts with
  | nil => rfl
  | cons t ts ih => rw [subtermsList, ih, List.flatMap_cons]

theorem subtermsUpList_eq (ts : List Term) : subtermsUpList ts = ts.flatMap subtermsUp := by
  induction ts with
  | nil => rfl
  | cons t ts ih => rw [subtermsUpList, ih, List.flatMap_cons]

theorem visitList_eq {α : Type} (f : α → Term → α) (ts : List Term) (a : α) :
    visitList f ts a = ts.foldl (fun a t => t.visit f a) a := by
  induction ts generalizing a with
  | nil => rfl
  | cons t ts ih => rw [visitList, ih, List.foldl_cons]

theorem collectList_eq (p : Term → Bool) (ts found : List Term) :
    collectList p ts found = ts.foldl (fun found t => t.collect p found) found := by
  induction ts generalizing found with
  | nil => rfl
  | cons t ts ih => rw [collectList, ih, List.foldl_cons]

theorem replaceList_eq (ts : List Term) (target replacement : Term) :
    replaceList ts target replacement = ts.map (·.replace target replacement) := by
  induction ts with
  | nil => rfl
  | cons t ts ih => rw [replaceList, ih, List.map_cons]

end Term

end Equational
