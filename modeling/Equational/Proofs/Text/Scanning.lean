import Equational.Text.Blank
import Equational.Text.Lines
import Mathlib.Data.List.DropRight

namespace Equational.Text

variable {cs l r : List Char} {c mark : Char} {p : Char → Bool}

/-- A scan stops behind `l` when all characters of `l` pass and the next one does not. -/
theorem takeWhile_dropWhile_iff :
    cs.takeWhile p = l ∧ cs.dropWhile p = r ↔
      cs = l ++ r ∧ (∀ c ∈ l, p c) ∧ ∀ c ∈ r.head?, p c = false := by
  constructor
  · rintro ⟨rfl, rfl⟩
    refine ⟨List.takeWhile_append_dropWhile.symm, fun c => List.mem_takeWhile_imp, fun c hc => ?_⟩
    have h := List.head?_dropWhile_not p cs
    rwa [hc] at h
  · rintro ⟨rfl, hl, hr⟩
    rw [List.takeWhile_append_of_pos hl, List.dropWhile_append_of_pos hl]
    cases r with
    | nil => simp
    | cons d r => simp [hr d rfl]

theorem cut_eq_some_iff : cut mark cs = some (l, r) ↔ cs = l ++ mark :: r ∧ mark ∉ l := by
  induction cs generalizing l with
  | nil => simp [cut]
  | cons d ds ih =>
    rw [cut]
    split
    · next hd =>
      subst hd
      cases l with
      | nil => simp
      | cons e l => simp +contextual
    · next hd =>
      cases l with
      | nil => simp [hd]
      | cons e l =>
        simp only [Option.map_eq_some_iff, Prod.exists, Prod.mk.injEq, List.cons_eq_cons,
          List.cons_append, List.mem_cons, not_or]
        constructor
        · rintro ⟨l', r', h, ⟨rfl, rfl⟩, rfl⟩
          obtain ⟨hds, hl⟩ := ih.mp h
          exact ⟨⟨rfl, hds⟩, Ne.symm hd, hl⟩
        · rintro ⟨⟨rfl, hds⟩, -, hl⟩
          exact ⟨l, r, ih.mpr ⟨hds, hl⟩, ⟨rfl, rfl⟩, rfl⟩

theorem trimStart_eq_self_iff : trimStart cs = cs ↔ ∀ c ∈ cs.head?, isBlank c = false := by
  rw [trimStart, List.dropWhile_eq_self_iff]
  cases cs <;> simp

theorem trimEnd_eq_self_iff : trimEnd cs = cs ↔ ∀ c ∈ cs.getLast?, isBlank c = false := by
  rw [trimEnd, List.reverse_eq_iff, trimStart_eq_self_iff, List.head?_reverse]

theorem trimStart_trimStart (cs : List Char) : trimStart (trimStart cs) = trimStart cs :=
  List.dropWhile_idempotent isBlank cs

theorem trimEnd_trimEnd (cs : List Char) : trimEnd (trimEnd cs) = trimEnd cs :=
  List.rdropWhile_idempotent isBlank cs

theorem trimEnd_isPrefix (cs : List Char) : trimEnd cs <+: cs := List.rdropWhile_prefix isBlank cs

theorem trim_isInfix (cs : List Char) : trim cs <:+: cs :=
  (trimEnd_isPrefix _).isInfix.trans (List.dropWhile_suffix _).isInfix

theorem mem_of_mem_trim (h : c ∈ trim cs) : c ∈ cs := (trim_isInfix cs).mem h

theorem head?_trim (h : c ∈ (trim cs).head?) : isBlank c = false := by
  obtain ⟨w, hw⟩ := trimEnd_isPrefix (trimStart cs)
  refine trimStart_eq_self_iff.mp (trimStart_trimStart cs) c ?_
  rw [trim, Option.mem_def] at h
  rw [← hw, List.head?_append, h]
  rfl

theorem getLast?_trim (h : c ∈ (trim cs).getLast?) : isBlank c = false :=
  trimEnd_eq_self_iff.mp (trimEnd_trimEnd (trimStart cs)) c h

/-- Nothing is dropped from a text that neither begins nor ends with white space. -/
theorem trim_eq_self (hh : ∀ c ∈ cs.head?, isBlank c = false)
    (hl : ∀ c ∈ cs.getLast?, isBlank c = false) : trim cs = cs := by
  rw [trim, trimStart_eq_self_iff.mpr hh, trimEnd_eq_self_iff.mpr hl]

theorem trim_trim (cs : List Char) : trim (trim cs) = trim cs :=
  trim_eq_self (fun _ => head?_trim) fun _ => getLast?_trim

theorem trim_eq_nil_iff : trim cs = [] ↔ cs.all isBlank := by
  rw [List.all_eq_true, ← List.dropWhile_eq_nil_iff]
  constructor
  · intro h
    have hs : ∀ d ∈ trimStart cs, isBlank d := List.rdropWhile_eq_nil_iff.mp h
    cases ht : trimStart cs with
    | nil => exact ht
    | cons d ds =>
      have hd := trimStart_eq_self_iff.mp (trimStart_trimStart cs) d (by simp [ht])
      simp [hs d (by simp [ht])] at hd
  · intro h
    rw [trim, trimStart, h]
    rfl

theorem trim_cons (h : isBlank c) : trim (c :: cs) = trim cs := by
  rw [trim, trimStart, List.dropWhile_cons_of_pos h]
  rfl

theorem trim_concat (h : isBlank c) : trim (cs ++ [c]) = trim cs := by
  rw [trim, trim, trimStart, trimStart, List.dropWhile_append]
  split
  · -- a text of nothing but white space is dropped from its left end
    next hs =>
    rw [List.isEmpty_iff.mp hs, List.dropWhile_cons_of_pos h]
    rfl
  · exact List.rdropWhile_concat_pos isBlank _ c h

end Equational.Text
