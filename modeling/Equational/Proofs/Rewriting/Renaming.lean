import Mathlib.Data.Set.Function
import Equational.Proofs.Rewriting.Reversal

/-! The names of pattern variables. They are letters that terms may have as variables of their own,
but a substitution goes through a pattern once and never into what it puts there. So other names
serve as well, as long as different variables keep different names. -/

namespace Equational

namespace Term

variable {ρ : Char → Char}

mutual

/-- Gives the pattern variable `x` the name `ρ x`. All other heads stay. -/
def rename (ρ : Char → Char) : Term → Term
  | node c ts => node (if ts.isEmpty && c.isLower then ρ c else c) (renameList ρ ts)

def renameList (ρ : Char → Char) : List Term → List Term
  | [] => []
  | t :: ts => rename ρ t :: renameList ρ ts

end

theorem renameList_eq (ρ : Char → Char) (ts : List Term) :
    renameList ρ ts = ts.map (rename ρ) := by
  induction ts with
  | nil => rfl
  | cons t ts ih => rw [renameList, ih, List.map_cons]

@[simp] theorem rename_leaf {c : Char} (hc : c.isLower = true) (ρ : Char → Char) :
    (leaf c).rename ρ = leaf (ρ c) := by
  simp [leaf, rename, renameList, hc]

theorem rename_node {c : Char} {ts : List Term} (h : (ts.isEmpty && c.isLower) = false)
    (ρ : Char → Char) : (node c ts).rename ρ = node c (ts.map (rename ρ)) := by
  rw [rename, h, renameList_eq]
  rfl

theorem isEmpty_map_rename {c : Char} {ts : List Term} (h : (ts.isEmpty && c.isLower) = false)
    (ρ : Char → Char) : ((ts.map (rename ρ)).isEmpty && c.isLower) = false := by
  rwa [List.isEmpty_map]

/-- What is put for a new name is put for the old ones that became it. -/
theorem instantiate_rename (hρ : ∀ c, c.isLower = true → (ρ c).isLower = true) (t : Term)
    (s : Char → Term) : (t.rename ρ).instantiate s = t.instantiate (s ∘ ρ) := by
  induction t with
  | node c ts ih =>
    rcases variable_or_node (node c ts) with ⟨d, hd, he⟩ | ⟨d, us, hd, he⟩
    · rw [he, rename_leaf hd, instantiate_leaf (hρ d hd), instantiate_leaf hd, Function.comp_apply]
    · obtain ⟨rfl, rfl⟩ := node.inj he
      rw [rename_node hd, instantiate_node (isEmpty_map_rename hd ρ), instantiate_node hd,
        List.map_map]
      congr 1
      exact List.map_congr_left ih

/-- A substitution is carried over to the new names by finding the old name of each variable. -/
theorem instantiate_rename_of_leftInv (hρ : ∀ c, c.isLower = true → (ρ c).isLower = true)
    {old : Char → Char} {t : Term} (hold : ∀ x ∈ t.patternVariables, old (ρ x) = x)
    (s : Char → Term) : (t.rename ρ).instantiate (s ∘ old) = t.instantiate s := by
  rw [instantiate_rename hρ]
  refine instantiate_congr fun x hx => ?_
  rw [Function.comp_apply, Function.comp_apply, hold x hx]

theorem mem_patternVariables_rename (hρ : ∀ c, c.isLower = true → (ρ c).isLower = true) {t : Term}
    {y : Char} : y ∈ (t.rename ρ).patternVariables ↔ ∃ x ∈ t.patternVariables, ρ x = y := by
  induction t with
  | node c ts ih =>
    rcases variable_or_node (node c ts) with ⟨d, hd, he⟩ | ⟨d, us, hd, he⟩
    · rw [he, rename_leaf hd, patternVariables_leaf (hρ d hd), patternVariables_leaf hd]
      simp [eq_comm]
    · obtain ⟨rfl, rfl⟩ := node.inj he
      rw [rename_node hd, mem_patternVariables_node (isEmpty_map_rename hd ρ)]
      simp only [mem_patternVariables_node hd, List.mem_map, exists_exists_and_eq_and]
      constructor
      · rintro ⟨t, ht, hy⟩
        obtain ⟨x, hx, rfl⟩ := (ih t ht).mp hy
        exact ⟨x, ⟨t, ht, hx⟩, rfl⟩
      · rintro ⟨x, ⟨t, ht, hx⟩, rfl⟩
        exact ⟨t, ht, (ih t ht).mpr ⟨x, hx, rfl⟩⟩

end Term

namespace Equation

variable {e : Equation} {ρ : Char → Char} {C : Context} {s : Char → Term} {t u : Term}

/-- The equation with other names for its pattern variables. -/
def rename (e : Equation) (ρ : Char → Char) : Equation := ⟨e.lhs.rename ρ, e.rhs.rename ρ⟩

theorem KeepsVariables.rename (h : e.KeepsVariables)
    (hρ : ∀ c, c.isLower = true → (ρ c).isLower = true) : (e.rename ρ).KeepsVariables := by
  intro y
  rw [Equation.rename, Term.mem_patternVariables_rename hρ, Term.mem_patternVariables_rename hρ]
  exact exists_congr fun x => and_congr_left fun _ => h x

/-- A step by the renamed equation is one by the equation, where each variable stands for what its
new name stands for. Here different variables may have become one. -/
theorem RewritesIn.of_rename (h : e.KeepsVariables)
    (hρ : ∀ c, c.isLower = true → (ρ c).isLower = true) (hr : (e.rename ρ).RewritesIn C s t u) :
    e.RewritesIn C (s ∘ ρ) t u := by
  obtain ⟨-, ht, hu⟩ := hr
  refine ⟨h.keeps _, ?_, ?_⟩
  · rw [ht, Equation.rename, Term.instantiate_rename hρ]
  · rw [hu, Equation.rename, Term.instantiate_rename hρ]

/-- A step by the equation is one by the renamed equation, where each new name stands for what the
one variable that has it stands for. -/
theorem RewritesIn.rename (h : e.KeepsVariables)
    (hρ : ∀ c, c.isLower = true → (ρ c).isLower = true)
    (hinj : Set.InjOn ρ {x | x ∈ e.lhs.patternVariables}) (hr : e.RewritesIn C s t u) :
    ∃ s', (e.rename ρ).RewritesIn C s' t u := by
  obtain ⟨-, ht, hu⟩ := hr
  let old : Char → Char := Function.invFunOn ρ {x | x ∈ e.lhs.patternVariables}
  have hold : ∀ x ∈ e.lhs.patternVariables, old (ρ x) = x := fun x hx => hinj.leftInvOn_invFunOn hx
  refine ⟨s ∘ old, (h.rename hρ).keeps _, ?_, ?_⟩
  · rw [ht, Equation.rename, Term.instantiate_rename_of_leftInv hρ hold]
  · rw [hu, Equation.rename,
      Term.instantiate_rename_of_leftInv hρ fun x hx => hold x ((h x).mpr hx)]

theorem checkForward_rename_ok_iff (h : e.KeepsVariables)
    (hρ : ∀ c, c.isLower = true → (ρ c).isLower = true)
    (hinj : Set.InjOn ρ {x | x ∈ e.lhs.patternVariables}) (hne : t ≠ u) :
    (e.rename ρ).checkForward t u = .ok () ↔ e.checkForward t u = .ok () := by
  constructor
  · intro hc
    obtain ⟨C, s, hr⟩ := exists_rewritesIn_of_checkForward hc
    exact checkForward_of_rewritesIn (hr.of_rename h hρ) hne
  · intro hc
    obtain ⟨C, s, hr⟩ := exists_rewritesIn_of_checkForward hc
    obtain ⟨s', hr'⟩ := hr.rename h hρ hinj
    exact checkForward_of_rewritesIn hr' hne

/-- Other names for the variables of an equation, whose sides have the same variables, never change
the result for a step, if different variables have different names. The terms of the step may have
the old names and the new ones as letters of their own. -/
theorem check_rename (e : Equation)
    (hvars : ∀ x, x ∈ e.lhs.patternVariables ↔ x ∈ e.rhs.patternVariables) (ρ : Char → Char)
    (hρ : ∀ c, c.isLower = true → (ρ c).isLower = true)
    (hinj : Set.InjOn ρ {x | x ∈ e.lhs.patternVariables}) (t u : Term) :
    (e.rename ρ).check t u = e.check t u := by
  apply check_congr
  have hinj' : Set.InjOn ρ {x | x ∈ e.flip.lhs.patternVariables} :=
    hinj.mono fun x hx => (hvars x).mpr hx
  have hflip : (e.rename ρ).flip = e.flip.rename ρ := rfl
  rw [check_eq_ok_iff, check_eq_ok_iff, hflip]
  refine and_congr_right fun hne => or_congr ?_ ?_
  · exact checkForward_rename_ok_iff hvars hρ hinj hne
  · exact checkForward_rename_ok_iff (KeepsVariables.flip hvars) hρ hinj' hne

/-- Distributivity with its variables renamed in a circle, for terms that have all three letters
themselves: one step is accepted, another one refused. -/
theorem check_rename_of_distributivity :
    let e : Equation :=
      ⟨.node '&' [.leaf 'x', .node '|' [.leaf 'y', .leaf 'z']],
        .node '|' [.node '&' [.leaf 'x', .leaf 'y'], .node '&' [.leaf 'x', .leaf 'z']]⟩
    let ρ : Char → Char := fun c =>
      if c = 'x' then 'y' else if c = 'y' then 'z' else if c = 'z' then 'x' else c
    let t : Term := .node '&' [.leaf 'z', .node '|' [.leaf 'x', .leaf 'y']]
    let u : Term := .node '|' [.node '&' [.leaf 'z', .leaf 'x'], .node '&' [.leaf 'z', .leaf 'y']]
    (∀ x, x ∈ e.lhs.patternVariables ↔ x ∈ e.rhs.patternVariables) ∧
      (∀ c, c.isLower = true → (ρ c).isLower = true) ∧
      Set.InjOn ρ {x | x ∈ e.lhs.patternVariables} ∧
      (e.rename ρ).check (.node '!' [t]) (.node '!' [u]) = .ok () ∧
      (e.rename ρ).check (.node '!' [t]) (.node '!' [.leaf 'z']) = .error .doesNotApply := by
  intro e ρ t u
  have hl : e.lhs.patternVariables = ['x', 'y', 'z'] := rfl
  have hr : e.rhs.patternVariables = ['x', 'y', 'x', 'z'] := rfl
  have hvars (x : Char) : x ∈ e.lhs.patternVariables ↔ x ∈ e.rhs.patternVariables := by
    rw [hl, hr]
    grind
  have hρ (c : Char) (hc : c.isLower = true) : (ρ c).isLower = true := by
    dsimp only [ρ]
    split_ifs
    · decide
    · decide
    · decide
    · exact hc
  have hinj : Set.InjOn ρ {x | x ∈ e.lhs.patternVariables} := by
    have h : ∀ x ∈ ['x', 'y', 'z'], ∀ y ∈ ['x', 'y', 'z'], ρ x = ρ y → x = y := by simp [ρ]
    exact fun x hx y hy => h x hx y hy
  have hsame := check_rename e hvars ρ hρ hinj
  have hok : e.check (.node '!' [t]) (.node '!' [u]) = .ok () := rfl
  have hno : e.check (.node '!' [t]) (.node '!' [.leaf 'z']) = .error .doesNotApply := rfl
  exact ⟨hvars, hρ, hinj, (hsame _ _).trans hok, (hsame _ _).trans hno⟩

end Equation

end Equational
