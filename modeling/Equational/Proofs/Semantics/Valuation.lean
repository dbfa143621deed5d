import Equational.Proofs.Rewriting.OneSite

namespace Equational

universe u

variable {α : Type u} {A : Char → List α → α} {v : Char → α}

namespace Term

mutual

/-- A leaf that is a letter has the value of the valuation, any other node that of its head. -/
def eval (A : Char → List α → α) (v : Char → α) : Term → α
  | node c ts => if ts.isEmpty && isLetter c then v c else A c (evalList A v ts)

def evalList (A : Char → List α → α) (v : Char → α) : List Term → List α
  | [] => []
  | t :: ts => eval A v t :: evalList A v ts

end

theorem evalList_eq (ts : List Term) : evalList A v ts = ts.map (eval A v) := by
  induction ts with
  | nil => rfl
  | cons t ts ih => rw [evalList, ih, List.map_cons]

theorem eval_letter {c : Char} (h : isLetter c = true) : (leaf c).eval A v = v c := by
  rw [leaf, eval, h]
  rfl

theorem eval_node {c : Char} {ts : List Term} (h : (ts.isEmpty && isLetter c) = false) :
    (node c ts).eval A v = A c (ts.map (eval A v)) := by
  rw [eval, h, evalList_eq]
  rfl

theorem isLower_eq_false_of_isUpper {c : Char} (h : c.isUpper = true) : c.isLower = false := by
  have hu := toNat_of_isUpper h
  cases hl : c.isLower with
  | false => rfl
  | true =>
    have hl' := toNat_of_isLower hl
    omega

/-- The value of an instance is that of the pattern, where the pattern variables have the values of
what is put for them. -/
theorem eval_instantiate (s : Char → Term) (t : Term) :
    (t.instantiate s).eval A v = t.eval A fun c => if c.isLower then (s c).eval A v else v c := by
  induction t with
  | node c ts ih =>
    rcases variable_or_node (node c ts) with ⟨d, hd, he⟩ | ⟨d, us, hd, he⟩
    · rw [he, instantiate_leaf hd, eval_letter (isLetter_iff.mpr (.inr hd)), if_pos hd]
    · obtain ⟨rfl, rfl⟩ := node.inj he
      rw [instantiate_node hd]
      by_cases hl : (ts.isEmpty && isLetter c) = true
      · obtain ⟨hts, hc⟩ := Bool.and_eq_true_iff.mp hl
        obtain rfl := List.isEmpty_iff.mp hts
        have hn : c.isLower = false := by simpa using hd
        have hleaf : ∀ w : Char → α, (node c []).eval A w = w c := fun w => eval_letter hc
        rw [List.map_nil, hleaf, hleaf, if_neg (by simp [hn])]
      · have hl' : (ts.isEmpty && isLetter c) = false := by simpa using hl
        have hm : ((ts.map (instantiate s)).isEmpty && isLetter c) = false := by
          rwa [List.isEmpty_map]
        rw [eval_node hm, eval_node hl', List.map_map]
        congr 1
        apply List.map_congr_left
        intro t ht
        exact ih t ht

end Term

/-- What is put into the hole matters by its value only. -/
theorem Context.eval_fill_congr {t u : Term} (h : t.eval A v = u.eval A v) (C : Context) :
    (C.fill t).eval A v = (C.fill u).eval A v := by
  induction C with
  | hole => exact h
  | node c before C after ih =>
    have hn : ∀ t : Term, ((before ++ t :: after).isEmpty && Term.isLetter c) = false := by simp
    rw [fill, fill, Term.eval_node (hn _), Term.eval_node (hn _)]
    simp only [List.map_append, List.map_cons, ih]

namespace Equation

/-- Both sides have the same value, whatever values the pattern variables have. Uppercase letters
keep the values that they have in the valuation. -/
def Holds (A : Char → List α → α) (v : Char → α) (e : Equation) : Prop :=
  ∀ w : Char → α, (∀ c, c.isUpper = true → w c = v c) → e.lhs.eval A w = e.rhs.eval A w

theorem Holds.flip {e : Equation} (h : e.Holds A v) : e.flip.Holds A v :=
  fun w hw => (h w hw).symm

theorem eval_eq_of_rewritesIn {e : Equation} {C : Context} {s : Char → Term} {t u : Term}
    (h : e.RewritesIn C s t u) (he : e.Holds A v) : t.eval A v = u.eval A v := by
  obtain ⟨-, rfl, rfl⟩ := h
  apply Context.eval_fill_congr
  rw [Term.eval_instantiate, Term.eval_instantiate]
  apply he
  intro c hc
  rw [Term.isLower_eq_false_of_isUpper hc]
  rfl

/-- A step keeps the value of a term wherever its equation holds. -/
theorem eval_eq_of_check {e : Equation} {t u : Term} (h : e.check t u = .ok ())
    (he : e.Holds A v) : t.eval A v = u.eval A v := by
  obtain ⟨C, s, hr | hr⟩ := exists_rewritesIn_of_check h
  · exact eval_eq_of_rewritesIn hr he
  · exact eval_eq_of_rewritesIn hr he.flip

end Equation

end Equational
