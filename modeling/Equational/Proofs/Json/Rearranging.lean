import Equational.Proofs.Json.Records
import Mathlib.Data.List.Forall2

namespace Equational.Json

variable {σ τ α β : Type}

/-- Related values under one key. -/
inductive SameKey (R : Json → Json → Prop) : String × Json → String × Json → Prop
  | mk (key : String) {j j' : Json} (h : R j j') : SameKey R (key, j) (key, j')

/-- The same value, with the members of each object in it in any order. -/
inductive Rearranged : Json → Json → Prop
  | null : Rearranged .null .null
  | bool (b : Bool) : Rearranged (.bool b) (.bool b)
  | int (n : Int) : Rearranged (.int n) (.int n)
  | str (s : String) : Rearranged (.str s) (.str s)
  | arr {js js' : List Json} (h : List.Forall₂ Rearranged js js') : Rearranged (.arr js) (.arr js')
  | obj {ms ns ms' : List (String × Json)} (h : List.Forall₂ (SameKey Rearranged) ms ns)
    (hp : ns.Perm ms') : Rearranged (.obj ms) (.obj ms')

mutual

theorem Rearranged.refl (j : Json) : j.Rearranged j := by
  cases j with
  | null => exact .null
  | bool b => exact .bool b
  | int n => exact .int n
  | str s => exact .str s
  | arr js => exact .arr (Rearranged.refl_items js)
  | obj ms => exact .obj (Rearranged.refl_members ms) (.refl ms)

theorem Rearranged.refl_items (js : List Json) : List.Forall₂ Rearranged js js := by
  cases js with
  | nil => exact .nil
  | cons j js => exact .cons (Rearranged.refl j) (Rearranged.refl_items js)

theorem Rearranged.refl_members (ms : List (String × Json)) :
    List.Forall₂ (SameKey Rearranged) ms ms := by
  cases ms with
  | nil => exact .nil
  | cons m ms => exact .cons (.mk m.1 (Rearranged.refl m.2)) (Rearranged.refl_members ms)

end

theorem named_sameKey {ms ns : List (String × Json)} (names : List String)
    (h : List.Forall₂ (SameKey Rearranged) ms ns) :
    List.Forall₂ Rearranged (named names ms) (named names ns) := by
  induction h with
  | nil => exact .nil
  | cons hm _ ih =>
    obtain ⟨key, hj⟩ := hm
    rw [named_cons, named_cons]
    split
    · exact .cons hj ih
    · exact ih

namespace Rearranged

variable {ms ms' : List (String × Json)} {names : List String}

theorem named (names : List String) (h : Rearranged (.obj ms) (.obj ms')) : ∃ js,
    List.Forall₂ Rearranged (named names ms) js ∧ js.Perm (named names ms') := by
  cases h with
  | obj h hp => exact ⟨_, named_sameKey names h, (hp.filter _).map _⟩

theorem named_eq_nil (h : Rearranged (.obj ms) (.obj ms')) (hn : Json.named names ms = []) :
    Json.named names ms' = [] := by
  obtain ⟨js, hjs, hp⟩ := h.named names
  rw [hn, List.forall₂_nil_left_iff] at hjs
  exact (hjs ▸ hp).nil_eq.symm

/-- The one member under some names is the only one after the members have been rearranged. -/
theorem named_eq_singleton (h : Rearranged (.obj ms) (.obj ms')) {j : Json}
    (hn : Json.named names ms = [j]) : ∃ j', Json.named names ms' = [j'] ∧ j.Rearranged j' := by
  obtain ⟨js, hjs, hp⟩ := h.named names
  rw [hn, List.forall₂_cons_left_iff] at hjs
  obtain ⟨j', _, hj, hnil, rfl⟩ := hjs
  rw [List.forall₂_nil_left_iff.mp hnil] at hp
  exact ⟨j', (List.perm_singleton.mp hp.symm), hj⟩

end Rearranged

theorem list_ne_null {f : α → Json} (as : List α) : list f as ≠ null := Json.noConfusion

/-- The value is read from what was written, in whatever order the members come. -/
def Decoder.Recovers (decode : Decoder α) (j : Json) (a : α) : Prop :=
  ∀ j', j.Rearranged j' → decode j'.draft = .ok a

/-- The fields are read from what was written, in whatever order they come. -/
def Record.Recovers (r : Record σ α) (ms : List (String × Json)) (a : α) : Prop :=
  ∀ ms', Rearranged (.obj ms) (.obj ms') → r.Reads ms' a

/-- A list is read if its items are, in the order in which they were written. -/
theorem Decoder.list_eq_ok {decode : Decoder α} {f : α → Json} {as : List α} {js : List Json}
    (hjs : List.Forall₂ Rearranged (as.map f) js)
    (h : ∀ a ∈ as, ∀ j ∈ js, (f a).Rearranged j → decode j.draft = .ok a) :
    Decoder.list decode (draft (.arr js)) = .ok as := by
  have hm : (draftItems js).mapM decode = .ok as := by
    induction as generalizing js with
    | nil =>
      rw [List.forall₂_nil_left_iff.mp hjs]
      rfl
    | cons a as ih =>
      obtain ⟨j, js, hj, htail, rfl⟩ := List.forall₂_cons_left_iff.mp hjs
      have hrest := ih htail fun b hb i hi => h b (by simp [hb]) i (by simp [hi])
      rw [draftItems, List.mapM_cons, h a (by simp) j (by simp) hj, hrest]
      rfl
  rw [draft, Decoder.list, hm]
  rfl

namespace Decoder.Recovers

variable {decode : Decoder α} {j : Json} {a : α}

theorem eq_ok (h : decode.Recovers j a) : decode j.draft = .ok a := h j (.refl j)

theorem text (s : String) : Decoder.text.Recovers (.str s) s := by
  rintro _ ⟨⟩
  rfl

theorem character (c : Char) : Decoder.character.Recovers (.char c) c := by
  rintro _ ⟨⟩
  simp [draft, Decoder.character]

theorem natural {bits n : Nat} (h : n < Nat.pow 2 bits) :
    (Decoder.natural bits).Recovers (.nat n) n := by
  rintro _ ⟨⟩
  have hn : (0 : Int) ≤ n ∧ (n : Int) ≤ (Nat.pow 2 bits - 1 : Nat) := by omega
  rw [draft, Decoder.natural, integer, if_pos hn]
  rfl

theorem uint8 (n : UInt8) : Decoder.uint8.Recovers (.nat n.toNat) n := by
  intro j' hj
  rw [Decoder.uint8, natural n.toNat_lt _ hj]
  simp [Functor.map, Except.map]

theorem uint32 (n : UInt32) : Decoder.uint32.Recovers (.nat n.toNat) n := by
  intro j' hj
  rw [Decoder.uint32, natural n.toNat_lt _ hj]
  simp [Functor.map, Except.map]

theorem null : (Decoder.option decode).Recovers .null none := by
  rintro _ ⟨⟩
  rfl

/-- Nothing but `null` is taken for a missing value. -/
theorem value (h : decode.Recovers j a) (hj : j ≠ .null) :
    (Decoder.option decode).Recovers j (some a) := by
  intro j' hj'
  have hd := h j' hj'
  cases hj' with
  | null => exact absurd rfl hj
  | bool | int | str | arr | obj => exact map_eq_ok_iff.mpr ⟨a, hd, rfl⟩

theorem option {f : α → Json} (h : ∀ a, decode.Recovers (f a) a) (hf : ∀ a, f a ≠ .null) :
    ∀ o, (Decoder.option decode).Recovers (.ofOption f o) o
  | none => null
  | some a => value (h a) (hf a)

theorem list {f : α → Json} {as : List α} (h : ∀ a ∈ as, decode.Recovers (f a) a) :
    (Decoder.list decode).Recovers (.list f as) as := by
  intro j' hj'
  cases hj' with
  | arr hjs => exact list_eq_ok hjs fun a ha j _ => h a ha j

theorem strings (ss : List String) : (Decoder.list Decoder.text).Recovers (.strings ss) ss :=
  list fun s _ => text s

/-- A record is written as an object of its fields. -/
theorem obj {r : Record σ α} {ms : List (String × Json)} (h : r.Recovers ms a) :
    r.decode.Recovers (.obj ms) a := by
  intro j' hj'
  cases hj' with
  | obj hm hp => exact Record.decode_obj_iff.mpr (h _ (.obj hm hp))

end Decoder.Recovers

namespace Record.Recovers

variable {r : Record σ α} {s : Record τ β} {ms : List (String × Json)} {a : α} {b : β}
  {names : List String} {decode : Decoder α} {default : Option α}

theorem map {f : α → β} (h : r.Recovers ms a) (hf : f a = b) : (r.map f).Recovers ms b :=
  fun ms' hms => reads_map.mpr ⟨a, h ms' hms, hf⟩

theorem and {ks ls : List String} [Keyed r ks] [Keyed s ls] (hd : ∀ key ∈ ks, key ∉ ls)
    (hr : r.Recovers ms a) (hs : s.Recovers ms b) : (r.and s).Recovers ms (a, b) :=
  fun ms' hms => (reads_and hd).mpr ⟨hr ms' hms, hs ms' hms⟩

theorem member {j : Json} (hn : named names ms = [j]) (h : decode.Recovers j a) :
    (fieldOf names decode default).Recovers ms a := by
  intro ms' hms
  obtain ⟨j', hn', hj⟩ := hms.named_eq_singleton hn
  exact reads_fieldOf.mpr (.inr ⟨j', hn', h j' hj⟩)

theorem leftOut (hn : named names ms = []) : (fieldOf names decode (some a)).Recovers ms a := by
  intro ms' hms
  exact reads_fieldOf.mpr (.inl ⟨hms.named_eq_nil hn, rfl⟩)

/-- A value that may be missing is left out or written under its name. -/
theorem optional {name : String} {f : α → Json} {o : Option α}
    (hn : named [name] ms = (o.map f).toList) (h : ∀ a, decode.Recovers (f a) a)
    (hf : ∀ a, f a ≠ .null) : (fieldD name (.option decode) none).Recovers ms o := by
  cases o with
  | none => exact leftOut hn
  | some a => exact member hn (.value (h a) (hf a))

end Record.Recovers

end Equational.Json
