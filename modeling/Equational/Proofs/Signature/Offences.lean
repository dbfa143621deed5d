import Equational.Signature.Basic

namespace Equational

/-- The offences of one symbol are reported in this order. -/
def SignatureError.rank : SignatureError → Nat
  | reservedId _ => 0
  | reservedText _ => 1
  | duplicateId _ => 2
  | duplicateText _ => 3
  | unsupportedFixity _ => 4

namespace Signature

variable {c : Char} {earlier symbols : List Symbol} {s : Symbol} {d e : SignatureError}

/-- What ids and texts are made of: no letter, no parenthesis and no white space. -/
structure Free (c : Char) : Prop where
  not_letter : Term.isLetter c = false
  not_open : c ≠ '('
  not_close : c ≠ ')'
  not_blank : Text.isBlank c = false

theorem isReserved_eq_false_iff : isReserved c = false ↔ Free c := by
  simp only [isReserved, Bool.or_eq_false_iff, beq_eq_false_iff_ne]
  exact ⟨fun ⟨⟨⟨h₁, h₂⟩, h₃⟩, h₄⟩ => ⟨h₁, h₂, h₃, h₄⟩, fun ⟨h₁, h₂, h₃, h₄⟩ => ⟨⟨⟨h₁, h₂⟩, h₃⟩, h₄⟩⟩

theorem isReservedText_eq_false_iff {text : String} :
    isReservedText text = false ↔ text ≠ "" ∧ ∀ c ∈ text.toList, Free c := by
  simp only [isReservedText, Bool.or_eq_false_iff, List.isEmpty_eq_false_iff, ne_eq,
    String.toList_eq_nil_iff, List.any_eq_false, Bool.not_eq_true, isReserved_eq_false_iff]

/-- What is wrong with a symbol, by itself or beside the symbols before it. -/
inductive Offends (earlier : List Symbol) (s : Symbol) : SignatureError → Prop where
  | reservedId (h : ¬ Free s.id) : Offends earlier s (.reservedId s.id)
  | reservedText (h : s.text = "" ∨ ∃ c ∈ s.text.toList, ¬ Free c) :
    Offends earlier s (.reservedText s.text)
  | duplicateId (h : ∃ r ∈ earlier, r.id = s.id) : Offends earlier s (.duplicateId s.id)
  | duplicateText (h : ∃ r ∈ earlier, r.text = s.text) : Offends earlier s (.duplicateText s.text)

/-- What is wrong with the symbol of number `i` in a list. -/
def OffendsAt (symbols : List Symbol) (i : Nat) (e : SignatureError) : Prop :=
  ∃ s, symbols[i]? = some s ∧ Offends (symbols.take i) s e

/-- No symbol before the symbol of number `i` offends, and none of its offences comes before `e`. -/
structure FirstOffence (symbols : List Symbol) (i : Nat) (e : SignatureError) : Prop where
  offends : OffendsAt symbols i e
  none_before : ∀ j < i, ∀ d, ¬ OffendsAt symbols j d
  rank_le : ∀ d, OffendsAt symbols i d → e.rank ≤ d.rank

/-- A symbol offends in each way once. -/
theorem Offends.eq_of_rank_eq (hd : Offends earlier s d) (he : Offends earlier s e)
    (h : d.rank = e.rank) : d = e := by
  cases hd <;> cases he <;> simp_all [SignatureError.rank]

theorem offends_of_offence? (h : offence? earlier s = some e) :
    Offends earlier s e ∧ ∀ d, Offends earlier s d → e.rank ≤ d.rank := by
  have hid : isReserved s.id = true ↔ ¬ Free s.id := by
    rw [← isReserved_eq_false_iff, Bool.not_eq_false]
  have htext : isReservedText s.text = true ↔ s.text = "" ∨ ∃ c ∈ s.text.toList, ¬ Free c := by
    rw [← Bool.not_eq_false, isReservedText_eq_false_iff, Classical.not_and_iff_not_or_not]
    simp
  have hids : earlier.any (·.id == s.id) = true ↔ ∃ r ∈ earlier, r.id = s.id := by simp
  have htexts : earlier.any (·.text == s.text) = true ↔ ∃ r ∈ earlier, r.text = s.text := by simp
  rw [offence?] at h
  split at h
  · next h₀ =>
    obtain rfl := Option.some.inj h
    exact ⟨.reservedId (hid.mp h₀), fun d _ => Nat.zero_le _⟩
  · split at h
    · next h₀ h₁ =>
      obtain rfl := Option.some.inj h
      refine ⟨.reservedText (htext.mp h₁), fun d hd => ?_⟩
      cases hd with
      | reservedId hd => exact absurd (hid.mpr hd) h₀
      | _ => simp [SignatureError.rank]
    · split at h
      · next h₀ h₁ h₂ =>
        obtain rfl := Option.some.inj h
        refine ⟨.duplicateId (hids.mp h₂), fun d hd => ?_⟩
        cases hd with
        | reservedId hd => exact absurd (hid.mpr hd) h₀
        | reservedText hd => exact absurd (htext.mpr hd) h₁
        | _ => simp [SignatureError.rank]
      · split at h
        · next h₀ h₁ h₂ h₃ =>
          obtain rfl := Option.some.inj h
          refine ⟨.duplicateText (htexts.mp h₃), fun d hd => ?_⟩
          cases hd with
          | reservedId hd => exact absurd (hid.mpr hd) h₀
          | reservedText hd => exact absurd (htext.mpr hd) h₁
          | duplicateId hd => exact absurd (hids.mpr hd) h₂
          | duplicateText hd => exact Nat.le_refl _
        · cases h

theorem offence?_eq_none_iff_not_offends :
    offence? earlier s = none ↔ ∀ e, ¬ Offends earlier s e := by
  constructor
  · rw [offence?_eq_none_iff, isReserved_eq_false_iff, isReservedText_eq_false_iff]
    rintro ⟨hid, ⟨hne, htext⟩, hids, htexts⟩ e he
    cases he with
    | reservedId h => exact h hid
    | reservedText h =>
      rcases h with h | ⟨c, hc, hfree⟩
      · exact hne h
      · exact hfree (htext c hc)
    | duplicateId h =>
      obtain ⟨r, hr, h⟩ := h
      exact hids r hr h
    | duplicateText h =>
      obtain ⟨r, hr, h⟩ := h
      exact htexts r hr h
  · intro h
    exact Option.eq_none_iff_forall_ne_some.mpr fun e he => h e (offends_of_offence? he).1

/-- Of the offences of a symbol the one of the least rank is found. -/
theorem offence?_eq_some_iff : offence? earlier s = some e ↔
    Offends earlier s e ∧ ∀ d, Offends earlier s d → e.rank ≤ d.rank := by
  constructor
  · exact offends_of_offence?
  · rintro ⟨he, hle⟩
    cases hf : offence? earlier s with
    | none => exact absurd he (offence?_eq_none_iff_not_offends.mp hf e)
    | some d =>
      obtain ⟨hd, hle'⟩ := offends_of_offence? hf
      have hrank : d.rank = e.rank := Nat.le_antisymm (hle' e he) (hle d hd)
      rw [hd.eq_of_rank_eq he hrank]

/-- The symbols are gone through from the first one on. -/
theorem firstOffence?_eq_some_iff : firstOffence? earlier symbols = some e ↔
    ∃ i s, symbols[i]? = some s ∧ offence? (earlier ++ symbols.take i) s = some e ∧
      ∀ j < i, ∀ r, symbols[j]? = some r → offence? (earlier ++ symbols.take j) r = none := by
  induction symbols generalizing earlier with
  | nil => simp [firstOffence?]
  | cons s ss ih =>
    have hbefore (i : Nat) : earlier ++ (s :: ss).take (i + 1) = earlier ++ [s] ++ ss.take i := by
      simp
    rw [firstOffence?, Option.or_eq_some_iff, ih]
    constructor
    · rintro (h | ⟨h, i, r, hr, he, hnone⟩)
      · exact ⟨0, s, rfl, by simpa using h, fun j hj => absurd hj (Nat.not_lt_zero j)⟩
      · refine ⟨i + 1, r, hr, by rwa [hbefore], fun j hj q hq => ?_⟩
        cases j with
        | zero =>
          obtain rfl : s = q := Option.some.inj hq
          simpa using h
        | succ j =>
          rw [hbefore]
          exact hnone j (Nat.lt_of_succ_lt_succ hj) q hq
    · rintro ⟨_ | i, r, hr, he, hnone⟩
      · obtain rfl : s = r := Option.some.inj hr
        exact .inl (by simpa using he)
      · refine .inr ⟨by simpa using hnone 0 (Nat.succ_pos i) s rfl, i, r, hr, ?_, ?_⟩
        · rwa [hbefore] at he
        · intro j hj q hq
          have hnone' := hnone (j + 1) (Nat.succ_lt_succ hj) q hq
          rwa [hbefore] at hnone'

theorem firstOffence?_eq_some_iff_firstOffence :
    firstOffence? [] symbols = some e ↔ ∃ i, FirstOffence symbols i e := by
  simp only [firstOffence?_eq_some_iff, List.nil_append]
  constructor
  · rintro ⟨i, s, hs, he, hnone⟩
    obtain ⟨hoffends, hle⟩ := offence?_eq_some_iff.mp he
    refine ⟨i, ⟨s, hs, hoffends⟩, ?_, ?_⟩
    · rintro j hj d ⟨r, hr, hd⟩
      exact offence?_eq_none_iff_not_offends.mp (hnone j hj r hr) d hd
    · rintro d ⟨r, hr, hd⟩
      obtain rfl : s = r := Option.some.inj (hs.symm.trans hr)
      exact hle d hd
  · rintro ⟨i, ⟨s, hs, he⟩, hnone, hle⟩
    refine ⟨i, s, hs, offence?_eq_some_iff.mpr ⟨he, fun d hd => hle d ⟨s, hs, hd⟩⟩, ?_⟩
    intro j hj r hr
    exact offence?_eq_none_iff_not_offends.mpr fun d hd => hnone j hj d ⟨r, hr, hd⟩

theorem lawful_iff_free : Lawful symbols ↔
    (∀ s ∈ symbols, Free s.id ∧ s.text ≠ "" ∧ ∀ c ∈ s.text.toList, Free c) ∧
      symbols.Pairwise (·.id ≠ ·.id) ∧ symbols.Pairwise (·.text ≠ ·.text) := by
  constructor
  · rintro ⟨hid, htext, hids, htexts⟩
    refine ⟨fun s hs => ⟨isReserved_eq_false_iff.mp (hid s hs), ?_⟩, hids, htexts⟩
    exact isReservedText_eq_false_iff.mp (htext s hs)
  · rintro ⟨hfree, hids, htexts⟩
    refine ⟨fun s hs => isReserved_eq_false_iff.mpr (hfree s hs).1, fun s hs => ?_, hids, htexts⟩
    exact isReservedText_eq_false_iff.mpr (hfree s hs).2

variable {equality : EqualitySign} {σ : Signature}

theorem ofSymbols_eq_ok_iff :
    ofSymbols symbols equality = .ok σ ↔ σ.symbols = symbols ∧ σ.equality = equality := by
  constructor
  · intro h
    rw [ofSymbols] at h
    split at h
    · obtain rfl := Except.ok.inj h
      exact ⟨rfl, rfl⟩
    · cases h
  · rintro ⟨rfl, rfl⟩
    exact ofSymbols_of_lawful σ.lawful σ.equality

theorem ofSymbols_eq_error_iff :
    ofSymbols symbols equality = .error e ↔ firstOffence? [] symbols = some e := by
  rw [ofSymbols]
  split
  · next h => simp [h]
  · next d h => simp [h]

/-- A list of symbols is made a signature exactly if all ids and texts are free for use, no text is
empty, and no two symbols share an id or a text. Of any other list the first offence is told. In a
signature every symbol is found by its id and by its text. -/
theorem ofSymbols_tells_first_offence (symbols : List Symbol) (equality : EqualitySign) :
    ((∃ σ, ofSymbols symbols equality = .ok σ) ↔
      (∀ s ∈ symbols, Free s.id ∧ s.text ≠ "" ∧ ∀ c ∈ s.text.toList, Free c) ∧
      symbols.Pairwise (·.id ≠ ·.id) ∧ symbols.Pairwise (·.text ≠ ·.text)) ∧
    (∀ e, ofSymbols symbols equality = .error e ↔ ∃ i, FirstOffence symbols i e) ∧
    ∀ σ, ofSymbols symbols equality = .ok σ → σ.symbols = symbols ∧ σ.equality = equality ∧
      ∀ s ∈ symbols, σ.byId? s.id = some s ∧ σ.byText? s.text = some s := by
  refine ⟨?_, ?_, ?_⟩
  · rw [← lawful_iff_free]
    constructor
    · rintro ⟨σ, hσ⟩
      rw [← (ofSymbols_eq_ok_iff.mp hσ).1]
      exact σ.lawful
    · intro h
      exact ⟨_, ofSymbols_of_lawful h equality⟩
  · intro e
    rw [ofSymbols_eq_error_iff, firstOffence?_eq_some_iff_firstOffence]
  · intro σ hσ
    obtain ⟨rfl, rfl⟩ := ofSymbols_eq_ok_iff.mp hσ
    exact ⟨rfl, rfl, fun s hs => ⟨byId?_of_mem hs, byText?_of_mem hs⟩⟩

/-- The second symbol of three offends twice, and the third one once. -/
theorem ofSymbols_tells_first_offence_of_three :
    let disjunction : Symbol := .plain '|' "or" "∨" .between
    let negation : Symbol := .plain '!' "not" "¬" .before
    let symbols : List Symbol :=
      [disjunction, .plain '|' "and" "(" .between, .plain 'a' "not" "¬" .before]
    (∃ σ, ofSymbols [disjunction, negation] .plain = .ok σ ∧ negation ∈ [disjunction, negation] ∧
      σ.byId? '!' = some negation ∧ σ.byText? "¬" = some negation) ∧
    OffendsAt symbols 1 (.duplicateId '|') ∧ OffendsAt symbols 2 (.reservedId 'a') ∧
    ofSymbols symbols .plain = .error (.reservedText "(") ∧
      ∃ i, FirstOffence symbols i (.reservedText "(") := by
  intro disjunction negation symbols
  have hlawful : Lawful [disjunction, negation] := by decide
  have hok := ofSymbols_of_lawful hlawful .plain
  have hfound := ((ofSymbols_tells_first_offence [disjunction, negation] .plain).2.2 _ hok).2.2
    negation (by simp)
  have hid : OffendsAt symbols 1 (.duplicateId '|') :=
    ⟨_, rfl, .duplicateId ⟨disjunction, List.mem_cons_self, rfl⟩⟩
  have hletter : OffendsAt symbols 2 (.reservedId 'a') :=
    ⟨_, rfl, .reservedId fun h => Bool.noConfusion h.not_letter⟩
  have herror : ofSymbols symbols .plain = .error (.reservedText "(") :=
    ofSymbols_eq_error_iff.mpr (by decide)
  exact ⟨⟨_, hok, by simp, hfound⟩, hid, hletter, herror,
    ((ofSymbols_tells_first_offence symbols .plain).2.1 _).mp herror⟩

end Signature

end Equational
