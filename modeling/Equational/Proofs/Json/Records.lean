import Equational.Json.Record
import Equational.Proofs.Except
import Mathlib.Data.List.Basic

namespace Equational.Json

variable {σ τ α β : Type} {ms : List (String × Json)}

mutual

/-- A written value is passed over without a fault. -/
theorem pass_draft (j : Json) : j.draft.pass = .ok () := by
  cases j with
  | arr js =>
    rw [draft, Draft.pass, passItems_draft js]
    rfl
  | obj ms =>
    rw [draft, Draft.pass, passMembers_draft ms]
    rfl
  | null | bool | int | str => rfl

theorem passItems_draft (js : List Json) : Draft.passItems (draftItems js) = .ok () := by
  cases js with
  | nil => rfl
  | cons j js =>
    rw [draftItems, Draft.passItems, pass_draft j]
    exact passItems_draft js

theorem passMembers_draft (ms : List (String × Json)) :
    Draft.passMembers (draftMembers ms) = .ok () := by
  cases ms with
  | nil => rfl
  | cons m ms =>
    rw [draftMembers, Draft.passMembers, pass_draft m.2]
    exact passMembers_draft ms

end

/-- An item lies deeper in a written value than the array. -/
theorem depth_lt_of_mem {j : Json} {js : List Json} (h : j ∈ js) :
    j.draft.depth < (draft (.arr js)).depth := by
  rw [draft, Draft.depth, Nat.lt_succ_iff]
  induction js with
  | nil => cases h
  | cons i js ih =>
    rw [draftItems, Draft.depthItems]
    rcases List.mem_cons.mp h with rfl | h
    · exact Nat.le_max_left _ _
    · exact Nat.le_trans (ih h) (Nat.le_max_right _ _)

/-- The values under one of several names. -/
def named (names : List String) (ms : List (String × Json)) : List Json :=
  (ms.filter fun m => names.contains m.1).map Prod.snd

@[simp] theorem named_nil (names : List String) : named names [] = [] := rfl

theorem named_cons {names : List String} {key : String} {j : Json} :
    named names ((key, j) :: ms) =
      if names.contains key then j :: named names ms else named names ms := by
  rw [named, List.filter_cons]
  split <;> rfl

theorem named_append {names : List String} {ns : List (String × Json)} :
    named names (ms ++ ns) = named names ms ++ named names ns := by
  simp [named]

theorem named_ite {names : List String} {ns : List (String × Json)} {p : Prop} [Decidable p] :
    named names (if p then ms else ns) = if p then named names ms else named names ns :=
  apply_ite (named names) p ms ns

theorem depth_lt_of_named {names : List String} {j : Json} (h : j ∈ named names ms) :
    j.draft.depth < (draft (.obj ms)).depth := by
  rw [draft, Draft.depth, Nat.lt_succ_iff]
  induction ms with
  | nil => cases h
  | cons m ms ih =>
    obtain ⟨key, i⟩ := m
    have htail (hj : j ∈ named names ms) :
        j.draft.depth ≤ Draft.depthMembers (draftMembers ((key, i) :: ms)) :=
      Nat.le_trans (ih hj) (Nat.le_max_right _ _)
    rw [named_cons] at h
    split at h
    · rcases List.mem_cons.mp h with rfl | h
      · exact Nat.le_max_left _ _
      · exact htail h
    · exact htail h

/-- The object has one member under these names, and that gives the value, or it has none, and the
value is the default. -/
def Field (names : List String) (decode : Decoder α) (default : Option α)
    (ms : List (String × Json)) (a : α) : Prop :=
  (named names ms = [] ∧ default = some a) ∨
    ∃ j, named names ms = [j] ∧ decode j.draft = .ok a

namespace Record

/-- The members of the object give the fields of the value. -/
def Reads (r : Record σ α) (ms : List (String × Json)) (a : α) : Prop :=
  ∃ read, r.members r.start (draftMembers ms) = .ok read ∧ r.finish read = .ok a

theorem decode_obj_iff {r : Record σ α} {a : α} :
    r.decode (draft (.obj ms)) = .ok a ↔ r.Reads ms a := by
  rw [draft, decode, Reads]
  cases r.members r.start (draftMembers ms) <;> simp [bind, Except.bind]

/-- The keys that belong to the fields of a record, whatever has been read of it. Instances collect
them from the fields that a record is put together from. -/
class Keyed (r : Record σ α) (keys : outParam (List String)) : Prop where
  isSome_member? (key : String) (d : Draft) (read : σ) :
    (r.member? key d read).isSome = keys.contains key

instance {names : List String} {decode : Decoder α} {default : Option α} :
    Keyed (fieldOf names decode default) names where
  isSome_member? key d read := by
    simp only [fieldOf]
    cases names.contains key <;> rfl

instance {name : String} {decode : Decoder α} : Keyed (field name decode) [name] :=
  inferInstanceAs (Keyed (fieldOf [name] decode none) [name])

instance {name : String} {decode : Decoder α} {default : α} :
    Keyed (fieldD name decode default) [name] :=
  inferInstanceAs (Keyed (fieldOf [name] decode (some default)) [name])

instance {r : Record σ α} {s : Record τ β} {ks ls : List String} [Keyed r ks] [Keyed s ls] :
    Keyed (r.and s) (ks ++ ls) where
  isSome_member? key d read := by
    have hr := Keyed.isSome_member? (r := r) key d read.1
    have hs := Keyed.isSome_member? (r := s) key d read.2
    simp only [and]
    rw [List.contains_append, ← hr, ← hs]
    cases r.member? key d read.1 <;> simp

instance {r : Record σ α} {f : α → β} {keys : List String} [h : Keyed r keys] :
    Keyed (r.map f) keys :=
  ⟨h.isSome_member?⟩

theorem member?_eq_none {r : Record σ α} {keys : List String} [h : Keyed r keys] {key : String}
    (hk : key ∉ keys) (d : Draft) (read : σ) : r.member? key d read = none := by
  rw [← Option.isNone_iff_eq_none, ← Option.not_isSome, h.isSome_member?]
  simpa using hk

theorem member?_isSome {r : Record σ α} {keys : List String} [h : Keyed r keys] {key : String}
    {d : Draft} {read : σ} (hs : (r.member? key d read).isSome) : key ∈ keys := by
  rw [h.isSome_member?] at hs
  simpa using hs

/-- A member that belongs to no field is passed over. -/
theorem members_cons_none {r : Record σ α} {key : String} {j : Json} {read : σ}
    (h : r.member? key j.draft read = none) :
    r.members read (draftMembers ((key, j) :: ms)) = r.members read (draftMembers ms) := by
  rw [draftMembers, members, h]
  simp [pass_draft, bind, Except.bind]

theorem members_cons_some {r : Record σ α} {key : String} {j : Json} {read : σ}
    {x : Except Fault σ} (h : r.member? key j.draft read = some x) :
    r.members read (draftMembers ((key, j) :: ms)) =
      x >>= fun read => r.members read (draftMembers ms) := by
  rw [draftMembers, members, h]
  cases x <;> rfl

/-- Two records that share no key read their fields without regard to each other. -/
theorem members_and {r : Record σ α} {s : Record τ β} {ks ls : List String} [Keyed r ks]
    [Keyed s ls] (hd : ∀ key ∈ ks, key ∉ ls) {read read' : σ × τ} :
    (r.and s).members read (draftMembers ms) = .ok read' ↔
      r.members read.1 (draftMembers ms) = .ok read'.1 ∧
        s.members read.2 (draftMembers ms) = .ok read'.2 := by
  induction ms generalizing read with
  | nil => simp [draftMembers, members, Prod.ext_iff]
  | cons m ms ih =>
    obtain ⟨key, j⟩ := m
    cases hr : r.member? key j.draft read.1 with
    | some x =>
      have hs : s.member? key j.draft read.2 = none :=
        member?_eq_none (hd key (member?_isSome (r := r) (by rw [hr]; rfl))) _ _
      have hrs : (r.and s).member? key j.draft read = some ((fun a => (a, read.2)) <$> x) := by
        simp only [and, hr]
      rw [members_cons_some hrs, members_cons_some hr, members_cons_none hs]
      cases x with
      | error f => simp [bind, Except.bind, Functor.map, Except.map]
      | ok a => exact ih
    | none =>
      cases hs : s.member? key j.draft read.2 with
      | some x =>
        have hrs : (r.and s).member? key j.draft read = some ((fun b => (read.1, b)) <$> x) := by
          simp only [and, hr, hs, Option.map_some]
        rw [members_cons_some hrs, members_cons_none hr, members_cons_some hs]
        cases x with
        | error f => simp [bind, Except.bind, Functor.map, Except.map]
        | ok b => exact ih
      | none =>
        have hrs : (r.and s).member? key j.draft read = none := by
          simp only [and, hr, hs, Option.map_none]
        rw [members_cons_none hrs, members_cons_none hr, members_cons_none hs]
        exact ih

theorem reads_and {r : Record σ α} {s : Record τ β} {ks ls : List String} [Keyed r ks]
    [Keyed s ls] (hd : ∀ key ∈ ks, key ∉ ls) {a : α} {b : β} :
    (r.and s).Reads ms (a, b) ↔ r.Reads ms a ∧ s.Reads ms b := by
  simp only [Reads, members_and hd, Prod.exists]
  constructor
  · rintro ⟨u, v, ⟨hu, hv⟩, h⟩
    obtain ⟨a', ha, h⟩ := bind_eq_ok_iff.mp h
    obtain ⟨b', hb, h⟩ := bind_eq_ok_iff.mp h
    cases h
    exact ⟨⟨u, hu, ha⟩, v, hv, hb⟩
  · rintro ⟨⟨u, hu, ha⟩, v, hv, hb⟩
    exact ⟨u, v, ⟨hu, hv⟩, bind_eq_ok_iff.mpr ⟨a, ha, bind_eq_ok_iff.mpr ⟨b, hb, rfl⟩⟩⟩

theorem members_map {r : Record σ α} {f : α → β} {read : σ} {ds : List (Option String × Draft)} :
    (r.map f).members read ds = r.members read ds := by
  induction ds generalizing read with
  | nil => rfl
  | cons m ds ih =>
    obtain ⟨key, d⟩ := m
    cases key with
    | none => rfl
    | some key =>
      rw [members, members]
      simp only [ih]
      rfl

theorem reads_map {r : Record σ α} {f : α → β} {b : β} :
    (r.map f).Reads ms b ↔ ∃ a, r.Reads ms a ∧ f a = b := by
  simp only [Reads, members_map]
  constructor
  · rintro ⟨u, hu, h⟩
    obtain ⟨a, ha, rfl⟩ := map_eq_ok_iff.mp h
    exact ⟨a, ⟨u, hu, ha⟩, rfl⟩
  · rintro ⟨a, ⟨u, hu, ha⟩, rfl⟩
    exact ⟨u, hu, map_eq_ok_iff.mpr ⟨a, ha, rfl⟩⟩

section

variable {names : List String} {decode : Decoder α} {default : Option α}

/-- A field that has been read comes no second time. -/
theorem members_fieldOf_some {a : α} {read : Option α} :
    (fieldOf names decode default).members (some a) (draftMembers ms) = .ok read ↔
      named names ms = [] ∧ read = some a := by
  induction ms with
  | nil => simp [draftMembers, members, named, eq_comm]
  | cons m ms ih =>
    obtain ⟨key, j⟩ := m
    rw [named_cons]
    cases hk : names.contains key with
    | true =>
      rw [members_cons_some (x := .error .mismatched) (by simp only [fieldOf, hk, if_true])]
      simp [bind, Except.bind]
    | false =>
      rw [members_cons_none (by simp only [fieldOf, hk, Bool.false_eq_true, if_false])]
      simpa using ih

theorem members_fieldOf_none {read : Option α} :
    (fieldOf names decode default).members none (draftMembers ms) = .ok read ↔
      (named names ms = [] ∧ read = none) ∨
        ∃ j a, named names ms = [j] ∧ decode j.draft = .ok a ∧ read = some a := by
  induction ms with
  | nil => simp [draftMembers, members, named, eq_comm]
  | cons m ms ih =>
    obtain ⟨key, j⟩ := m
    rw [named_cons]
    cases hk : names.contains key with
    | true =>
      rw [members_cons_some (x := some <$> decode j.draft) (by simp only [fieldOf, hk, if_true]),
        bind_eq_ok_iff]
      simp only [if_true]
      constructor
      · rintro ⟨_, hd, h⟩
        obtain ⟨a, ha, rfl⟩ := map_eq_ok_iff.mp hd
        obtain ⟨hn, rfl⟩ := members_fieldOf_some.mp h
        exact .inr ⟨j, a, by rw [hn], ha, rfl⟩
      · rintro (⟨hn, -⟩ | ⟨j', a, hn, ha, rfl⟩)
        · cases hn
        · obtain ⟨rfl, hms⟩ := List.cons.inj hn
          exact ⟨some a, map_eq_ok_iff.mpr ⟨a, ha, rfl⟩, members_fieldOf_some.mpr ⟨hms, rfl⟩⟩
    | false =>
      rw [members_cons_none (by simp only [fieldOf, hk, Bool.false_eq_true, if_false])]
      simpa using ih

theorem reads_fieldOf {a : α} :
    (fieldOf names decode default).Reads ms a ↔ Field names decode default ms a := by
  rw [Reads, Field]
  constructor
  · rintro ⟨read, h, hf⟩
    rcases members_fieldOf_none.mp h with ⟨hn, rfl⟩ | ⟨j, a', hn, ha, rfl⟩
    · refine .inl ⟨hn, ?_⟩
      cases default with
      | none => cases hf
      | some d =>
        cases hf
        rfl
    · cases hf
      exact .inr ⟨j, hn, ha⟩
  · rintro (⟨hn, rfl⟩ | ⟨j, hn, ha⟩)
    · exact ⟨none, members_fieldOf_none.mpr (.inl ⟨hn, rfl⟩), rfl⟩
    · exact ⟨some a, members_fieldOf_none.mpr (.inr ⟨j, a, hn, ha, rfl⟩), rfl⟩

/-- A field is read on its own if no other one has its names. -/
theorem reads_field_and {s : Record τ β} {keys : List String} [Keyed s keys]
    (hd : ∀ key ∈ names, key ∉ keys) {x : α × β} :
    ((fieldOf names decode default).and s).Reads ms x ↔
      Field names decode default ms x.1 ∧ s.Reads ms x.2 := by
  obtain ⟨a, b⟩ := x
  rw [reads_and hd, reads_fieldOf]

end

end Record

end Equational.Json
