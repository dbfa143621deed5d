import Equational.SortedMap
import Equational.Term.Basic

namespace Equational

namespace Term

mutual

def substitute (s : Char → Option Term) : Term → Term
  | node c ts =>
    match ts.isEmpty && c.isLower, s c with
    | true, some t => t
    | _, _ => node c (substituteList s ts)

def substituteList (s : Char → Option Term) : List Term → List Term
  | [] => []
  | t :: ts => substitute s t :: substituteList s ts

end

theorem substituteList_eq (s : Char → Option Term) (ts : List Term) :
    substituteList s ts = ts.map (substitute s) := by
  induction ts with
  | nil => rfl
  | cons t ts ih => rw [substituteList, ih, List.map_cons]

end Term

/-- The terms that pattern variables stand for. -/
abbrev Bindings := SortedMap Char Term

namespace Bindings

/-- Puts the bound terms into a pattern. -/
def instantiate (b : Bindings) (pattern : Term) : Term := pattern.substitute b.get?

end Bindings

end Equational
