namespace Equational

/-- A finite map as the list of its entries in increasing order of their keys, so that equal maps
are equal lists. -/
structure SortedMap (κ β : Type) [LT κ] where
  entries : List (κ × β)
  sorted : entries.Pairwise (·.1 < ·.1)

namespace SortedMap

variable {κ β : Type} [LE κ] [LT κ] [DecidableLT κ] [DecidableEq κ]

def empty : SortedMap κ β := ⟨[], .nil⟩

instance : EmptyCollection (SortedMap κ β) := ⟨empty⟩

instance : Inhabited (SortedMap κ β) := ⟨empty⟩

def get? (m : SortedMap κ β) (k : κ) : Option β := (m.entries.find? (·.1 = k)).map (·.2)

def contains (m : SortedMap κ β) (k : κ) : Bool := (m.get? k).isSome

def keys (m : SortedMap κ β) : List κ := m.entries.map (·.1)

def values (m : SortedMap κ β) : List β := m.entries.map (·.2)

def size (m : SortedMap κ β) : Nat := m.entries.length

/-- Puts an entry in its place in an increasing list, instead of one with the same key. -/
def insertEntry (k : κ) (b : β) : List (κ × β) → List (κ × β)
  | [] => [(k, b)]
  | e :: es =>
    if k < e.1 then (k, b) :: e :: es
    else if k = e.1 then (k, b) :: es
    else e :: insertEntry k b es

omit [LE κ] in
theorem mem_insertEntry {k : κ} {b : β} {es : List (κ × β)} {e : κ × β}
    (h : e ∈ insertEntry k b es) : e = (k, b) ∨ e ∈ es := by
  induction es with
  | nil => simpa [insertEntry] using h
  | cons d ds ih =>
    rw [insertEntry] at h
    split at h
    · simpa using h
    · split at h
      · rcases List.mem_cons.mp h with h | h
        · exact .inl h
        · exact .inr (List.mem_cons_of_mem _ h)
      · rcases List.mem_cons.mp h with h | h
        · exact .inr (h ▸ List.mem_cons_self)
        · exact (ih h).imp_right (List.mem_cons_of_mem _)

theorem sorted_insertEntry [Std.IsLinearOrder κ] [Std.LawfulOrderLT κ] (k : κ) (b : β)
    {es : List (κ × β)} (h : es.Pairwise (·.1 < ·.1)) :
    (insertEntry k b es).Pairwise (·.1 < ·.1) := by
  induction es with
  | nil => exact .cons (by simp) .nil
  | cons d ds ih =>
    obtain ⟨hd, hds⟩ := List.pairwise_cons.mp h
    rw [insertEntry]
    split
    · next hk =>
      refine .cons (fun e he => ?_) h
      rcases List.mem_cons.mp he with rfl | he
      · exact hk
      · exact Std.lt_trans hk (hd e he)
    · next hk =>
      split
      · next he => exact .cons (fun e hm => he ▸ hd e hm) hds
      · next he =>
        refine .cons (fun e hm => ?_) (ih hds)
        rcases mem_insertEntry hm with rfl | hm
        · exact ((Std.lt_trichotomy k d.1).resolve_left hk).resolve_left he
        · exact hd e hm

variable [Std.IsLinearOrder κ] [Std.LawfulOrderLT κ]

/-- Sets what is found under a key. -/
def insert (m : SortedMap κ β) (k : κ) (b : β) : SortedMap κ β :=
  ⟨insertEntry k b m.entries, sorted_insertEntry k b m.sorted⟩

@[simp] theorem get?_insert_self (m : SortedMap κ β) (k : κ) (b : β) :
    (m.insert k b).get? k = some b := by
  obtain ⟨es, hs⟩ := m
  simp only [insert, get?, Option.map_eq_some_iff]
  refine ⟨(k, b), ?_, rfl⟩
  clear hs
  induction es with
  | nil => simp [insertEntry]
  | cons d ds ih =>
    rw [insertEntry]
    split
    · simp
    · split
      · simp
      · next he => simpa [Ne.symm he] using ih

@[simp] theorem get?_insert_of_ne (m : SortedMap κ β) {j k : κ} (b : β) (h : j ≠ k) :
    (m.insert k b).get? j = m.get? j := by
  obtain ⟨es, hs⟩ := m
  simp only [insert, get?]
  congr 1
  clear hs
  induction es with
  | nil => simp [insertEntry, Ne.symm h]
  | cons d ds ih =>
    rw [insertEntry]
    split
    · simp [Ne.symm h]
    · split
      · next he => simp [Ne.symm h, ← he]
      · next he => simp only [List.find?_cons, ih]

end SortedMap

end Equational
