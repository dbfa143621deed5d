import Equational.Proofs.Formula.Derivation

namespace Equational

namespace Item

/-- The longest run ends where the other items begin with none of its kind. -/
theorem spanMap_append {f : Item → Option Char} {g : Char → Item} (hg : ∀ c, f (g c) = some c)
    (cs : List Char) {rest : List Item} (hr : ∀ i ∈ rest.head?, f i = none) :
    spanMap f (cs.map g ++ rest) = (cs, rest) := by
  induction cs with
  | nil =>
    cases rest with
    | nil => rfl
    | cons i is =>
      have hi := hr i (by simp)
      simp [spanMap, hi]
  | cons c cs ih => simp [spanMap, hg, ih]

/-- A run and the other items make up the list. -/
theorem append_spanMap {f : Item → Option Char} {g : Char → Item}
    (hg : ∀ i c, f i = some c → i = g c) (is : List Item) :
    (spanMap f is).1.map g ++ (spanMap f is).2 = is := by
  induction is with
  | nil => rfl
  | cons i is ih =>
    rw [spanMap]
    cases hi : f i with
    | none => rfl
    | some c => simp [hg i c hi, ih]

/-- The items of an operand: operators before it, the operand, and operators behind it. -/
def around (bs : List Char) (u : Term) (ks : List Char) : List Item :=
  bs.map before ++ operand u :: ks.map behind

theorem eq_before_of_before? {i : Item} {c : Char} (h : i.before? = some c) : i = .before c := by
  cases i <;> simp_all [before?]

theorem eq_behind_of_behind? {i : Item} {c : Char} (h : i.behind? = some c) : i = .behind c := by
  cases i <;> simp_all [behind?]

end Item

namespace Signature

variable {σ : Signature}

theorem frontOperand_append (bs ks : List Char) (u : Term) (rest : List Item)
    (hr : ∀ i ∈ rest.head?, i.behind? = none) :
    σ.frontOperand (Item.around bs u ks ++ rest) = some (σ.applyUnary ks.reverse u bs, rest) := by
  have hb : Item.spanMap Item.before? (bs.map .before ++ .operand u :: (ks.map .behind ++ rest)) =
      (bs, .operand u :: (ks.map .behind ++ rest)) :=
    Item.spanMap_append (fun _ => rfl) bs (by simp [Item.before?])
  have hk : Item.spanMap Item.behind? (ks.map .behind ++ rest) = (ks, rest) :=
    Item.spanMap_append (fun _ => rfl) ks hr
  rw [Item.around, List.append_assoc, List.cons_append]
  simp only [frontOperand, hb, hk]

theorem frontOperand_around (bs ks : List Char) (u : Term) :
    σ.frontOperand (Item.around bs u ks) = some (σ.applyUnary ks.reverse u bs, []) := by
  have h := σ.frontOperand_append bs ks u [] (by simp)
  rwa [List.append_nil] at h

theorem eq_append_of_frontOperand {items rest : List Item} {t : Term}
    (h : σ.frontOperand items = some (t, rest)) :
    ∃ bs u ks, items = Item.around bs u ks ++ rest ∧ t = σ.applyUnary ks.reverse u bs := by
  have hb := Item.append_spanMap (g := .before) (fun i c => Item.eq_before_of_before?) items
  rw [frontOperand] at h
  split at h
  next bs after he =>
  rw [he] at hb
  split at h
  · next u is =>
    have hk := Item.append_spanMap (g := .behind) (fun i c => Item.eq_behind_of_behind?) is
    simp only [Option.some.injEq, Prod.mk.injEq] at h
    obtain ⟨rfl, rfl⟩ := h
    refine ⟨bs, u, (Item.spanMap Item.behind? is).1, ?_, rfl⟩
    rw [Item.around, List.append_assoc, List.cons_append, hk, hb]
  · cases h

theorem assemble_eq_some_iff {items : List Item} {t : Term} :
    σ.assemble items = some t ↔
      σ.frontOperand items = some (t, []) ∨
        ∃ l op rest r, σ.frontOperand items = some (l, .between op :: rest) ∧
          σ.frontOperand rest = some (r, []) ∧ t = .node op [l, r] := by
  rw [assemble]
  split
  · next u h => simp [h]
  · next l op rest h =>
    simp only [h, Option.some.injEq, Prod.mk.injEq, reduceCtorEq, and_false, false_or]
    split
    · next r hr =>
      simp only [Option.some.injEq]
      constructor
      · rintro rfl
        exact ⟨l, op, rest, r, ⟨rfl, rfl⟩, hr, rfl⟩
      · rintro ⟨l', op', rest', r', ⟨rfl, he⟩, hr', rfl⟩
        cases he
        rw [hr] at hr'
        cases hr'
        rfl
    · next hr =>
      simp only [reduceCtorEq, false_iff, not_exists, not_and]
      rintro l' op' rest' r' ⟨rfl, he⟩ hr'
      cases he
      exact absurd hr' (hr r')
  · next h₁ h₂ =>
    simp only [reduceCtorEq, false_iff, not_or, not_exists, not_and]
    refine ⟨fun h => h₁ t h, ?_⟩
    intro l op rest r h
    exact absurd h (h₂ l op rest)

/-- Items are found piece by piece. -/
theorem itemsOf_eq_some_iff {ps : List Piece} {items : List Item} :
    σ.itemsOf ps = some items ↔ ps.map σ.itemOf = items.map some := by
  induction ps generalizing items with
  | nil =>
    rw [itemsOf, List.map_nil, Option.some.injEq]
    constructor
    · rintro rfl
      rfl
    · intro h
      exact (List.map_eq_nil_iff.mp h.symm).symm
  | cons p ps ih =>
    rw [itemsOf, List.map_cons]
    constructor
    · intro h
      split at h
      · next i is hp hps =>
        obtain rfl := Option.some.inj h
        rw [hp, ih.mp hps, List.map_cons]
      · cases h
    · intro h
      cases items with
      | nil => cases h
      | cons i is =>
        rw [List.map_cons, List.cons.injEq] at h
        rw [h.1, ih.mpr h.2]

theorem termOf_eq_some_iff {ps : List Piece} {t : Term} :
    σ.termOf ps = some t ↔
      ∃ items, ps.map σ.itemOf = items.map some ∧ σ.assemble items = some t := by
  simp only [termOf, Option.bind_eq_some_iff, itemsOf_eq_some_iff]

/-- What a piece has to be in order to be an item. -/
inductive Plays (σ : Signature) : Piece → Item → Prop
  | atom {c : Char} (h : (Operand.atom c).Valid σ) : Plays σ (.token c) (.operand (.leaf c))
  | group {ps : List Piece} {t : Term} (h : σ.termOf ps = some t) :
    Plays σ (.group ps) (.operand t)
  | before {c : Char} (h : σ.fixity? c = some .before) : Plays σ (.token c) (.before c)
  | behind {c : Char} (h : σ.fixity? c = some .behind) : Plays σ (.token c) (.behind c)
  | between {c : Char} (h : σ.fixity? c = some .between) : Plays σ (.token c) (.between c)

theorem itemOf_group (ps : List Piece) :
    σ.itemOf (.group ps) = (σ.termOf ps).map .operand := by
  rw [itemOf, termOf]
  cases σ.itemsOf ps <;> rfl

theorem itemOf_eq_some_iff {p : Piece} {i : Item} : σ.itemOf p = some i ↔ σ.Plays p i := by
  cases p with
  | group ps =>
    rw [itemOf_group, Option.map_eq_some_iff]
    constructor
    · rintro ⟨t, ht, rfl⟩
      exact .group ht
    · rintro ⟨⟩
      next t h => exact ⟨t, h, rfl⟩
  | token c =>
    rw [itemOf, itemOfToken]
    by_cases hl : Term.isLetter c = true
    · have hf := σ.fixity?_of_isLetter hl
      rw [if_pos hl]
      constructor
      · intro h
        cases h
        exact .atom (.inl hl)
      · intro h
        cases h with
        | atom h => rfl
        | before h => rw [hf] at h; cases h
        | behind h => rw [hf] at h; cases h
        | between h => rw [hf] at h; cases h
    · rw [if_neg hl]
      constructor
      · intro h
        cases hf : σ.fixity? c with
        | none => rw [hf] at h; cases h
        | some f =>
          cases f <;> rw [hf] at h <;> cases h
          · exact .atom (.inr hf)
          · exact .before hf
          · exact .behind hf
          · exact .between hf
      · intro h
        cases h with
        | atom h => rw [h.resolve_left hl]
        | before h => rw [h]
        | behind h => rw [h]
        | between h => rw [h]

end Signature

end Equational
