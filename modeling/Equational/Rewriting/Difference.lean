import Equational.Term.Basic

namespace Equational.Term

mutual

/-- The number of places at which two terms differ. -/
def differences : Term → Term → Nat
  | node c ts, node d us =>
    if c = d ∧ ts.length = us.length then differencesList ts us else 1

def differencesList : List Term → List Term → Nat
  | t :: ts, u :: us => differences t u + differencesList ts us
  | _, _ => 0

end

end Equational.Term
