namespace Equational.Text

/-- Ranges of code points, both ends included, in increasing order and apart from each other. -/
abbrev Ranges := List (Nat × Nat)

/-- Looks a character up. The search ends at the first range that begins behind it. -/
def Ranges.contains : Ranges → Char → Bool
  | [], _ => false
  | (first, last) :: rest, c =>
    if c.toNat < first then false else c.toNat ≤ last || Ranges.contains rest c

end Equational.Text
