import Equational.Proofs.Script.Commitment

namespace Equational

open Text Command

variable {α : Type} {s cs rest a : List Char}

namespace Combinators

/-- Where a reader stops that accepts under a condition only. -/
theorem ite_stops {c : Prop} [Decidable c] {reason : Reason} {y : List Char × α}
    {x : Rejection Trail} (h : (if c then .ok y else stop reason cs) = .error x) :
    ¬ c ∧ x = .error [(cs, reason)] := by
  split at h
  · cases h
  · next hc =>
    cases h
    exact ⟨hc, rfl⟩

theorem ite_recovers {c : Prop} [Decidable c] {reason : Reason} {y : List Char × α}
    {x : Rejection Trail} (h : (if c then .ok y else stop reason cs) = .error x) :
    ∃ e, x = .error e :=
  ⟨_, (ite_stops h).2⟩

/-- Where a guard behind a reader stops. -/
theorem guard_stops {r : LineReader Trail α} (p : List Char × α → Prop) [DecidablePred p]
    (place : List Char × α → List Char) {x : Rejection Trail}
    (h : (r cs >>= fun y => if p y then pure y else stop .other (place y)) = .error x) :
    r cs = .error x ∨ ∃ y, r cs = .ok y ∧ ¬ p y ∧ x = .error [(place y, .other)] := by
  rcases bind_eq_error_iff.mp h with h | ⟨y, hy, h⟩
  · exact .inl h
  · exact .inr ⟨y, hy, ite_stops h⟩

theorem takeWhile1_ok {p : Char → Bool} : takeWhile1 p cs = .ok (rest, a) ↔
    a ≠ [] ∧ cs.takeWhile p = a ∧ cs.dropWhile p = rest := by
  rw [takeWhile1]
  split
  · next hs =>
    simp only [Except.ok.injEq, Prod.mk.injEq]
    exact ⟨fun ⟨hd, ht⟩ => ⟨ht ▸ hs, ht, hd⟩, fun ⟨_, ht, hd⟩ => ⟨hd, ht⟩⟩
  · next hs =>
    simp only [stop, reduceCtorEq, false_iff]
    exact fun ⟨hne, ht, _⟩ => hne (ht ▸ not_not.mp hs)

theorem splitBefore_eq_some (h : splitBefore s cs = some (a, rest)) :
    EndsBefore s cs a rest := by
  induction cs generalizing a with
  | nil =>
    rw [splitBefore] at h
    split at h
    · next hs =>
      cases h
      exact ⟨rfl, hs ▸ List.nil_prefix, fun _ _ _ _ => Nat.zero_le _⟩
    · cases h
  | cons c cs ih =>
    rw [splitBefore] at h
    split at h
    · next hs =>
      cases h
      exact ⟨rfl, List.isPrefixOf_iff_prefix.mp hs, fun _ _ _ _ => Nat.zero_le _⟩
    · next hs =>
      obtain ⟨⟨a, rest⟩, hr, hc⟩ := Option.map_eq_some_iff.mp h
      cases hc
      obtain ⟨rfl, hp, hleast⟩ := ih hr
      refine ⟨rfl, hp, fun a' rest' he hp' => ?_⟩
      cases a' with
      | nil =>
        obtain rfl : c :: (a ++ rest) = rest' := he
        exact absurd (List.isPrefixOf_iff_prefix.mpr hp') hs
      | cons d a' =>
        obtain ⟨-, he⟩ := List.cons.inj he
        exact Nat.succ_le_succ (hleast a' rest' he hp')

theorem splitBefore_isSome (h : s <+: rest) : (splitBefore s (a ++ rest)).isSome := by
  induction a with
  | nil =>
    cases rest with
    | nil => simp [splitBefore, List.prefix_nil.mp h]
    | cons c rest => simp [splitBefore, List.isPrefixOf_iff_prefix.mpr h]
  | cons c a ih =>
    rw [List.cons_append, splitBefore]
    split
    · rfl
    · rwa [Option.isSome_map]

theorem splitBefore_eq_some_iff :
    splitBefore s cs = some (a, rest) ↔ EndsBefore s cs a rest := by
  refine ⟨splitBefore_eq_some, ?_⟩
  rintro ⟨rfl, hp, hleast⟩
  obtain ⟨⟨b, r⟩, hb⟩ := Option.isSome_iff_exists.mp (splitBefore_isSome (a := a) hp)
  obtain ⟨he, hp', hleast'⟩ := splitBefore_eq_some hb
  have hlen : a.length = b.length := Nat.le_antisymm (hleast b r he hp') (hleast' a rest rfl hp)
  obtain ⟨rfl, rfl⟩ := List.append_inj he hlen
  exact hb

theorem firstOf_eq {t : Trail} {before after : List (LineReader Trail α)} {r : LineReader Trail α}
    (hb : ∀ q ∈ before, q.Passes cs) (hr : ¬ r.Passes cs) :
    firstOf t (before ++ r :: after) cs = r cs := by
  induction before generalizing t with
  | nil =>
    rw [List.nil_append, firstOf]
    split
    · next u hu => exact absurd ⟨u, hu⟩ hr
    · rfl
  | cons q before ih =>
    obtain ⟨u, hu⟩ := hb q (by simp)
    rw [List.cons_append, firstOf, hu]
    exact ih fun q hq => hb q (by simp [hq])

theorem firstOf_passes {t : Trail} {rs : List (LineReader Trail α)}
    (h : ∀ r ∈ rs, r.Passes cs) : (firstOf t rs).Passes cs := by
  induction rs generalizing t with
  | nil => exact ⟨_, rfl⟩
  | cons r rs ih =>
    obtain ⟨u, hu⟩ := h r (by simp)
    obtain ⟨e, he⟩ := ih (t := t.further u) fun r hr => h r (by simp [hr])
    refine ⟨e, ?_⟩
    rw [firstOf, hu]
    exact he

theorem trailing_lawful : trailing.Lawful where
  tag_ok := by
    intro s cs rest a
    simp only [trailing]
    split
    · next hs =>
      obtain ⟨r, rfl⟩ := List.isPrefixOf_iff_prefix.mp hs
      simp [eq_comm]
    · next hs =>
      simp only [stop, reduceCtorEq, false_iff]
      rintro ⟨rfl, -⟩
      exact hs (List.isPrefixOf_iff_prefix.mpr (List.prefix_append s rest))
  tag_recovers s cs x := ite_recovers
  space0_eq cs := rfl
  space1_ok := takeWhile1_ok
  space1_recovers cs x := ite_recovers
  char_ok := by
    intro c a cs rest
    cases cs with
    | nil => simp [trailing, stop]
    | cons d cs =>
      simp only [trailing, List.head?_cons, Option.some.injEq, List.tail_cons]
      split
      · next hd => simp [hd, eq_comm]
      · next hd => simp [stop, hd]
  char_recovers c cs x := ite_recovers
  takeTill1_ok := takeWhile1_ok
  takeTill1_recovers p cs x := ite_recovers
  takeUntil_ok := by
    intro s cs rest a
    rw [← splitBefore_eq_some_iff]
    simp only [trailing]
    split
    · next b r hb => simp [hb, and_comm]
    · next hb => simp [stop, hb]
  takeUntil_recovers s cs x h := by
    simp only [trailing] at h
    split at h
    · cases h
    · cases h
      exact ⟨_, rfl⟩
  rest_eq cs := rfl
  verify_ok := by
    intro α r p cs rest a
    simp only [trailing, bind_eq_ok_iff, Prod.exists]
    constructor
    · rintro ⟨rest', a', hr, h⟩
      split at h
      · next hp =>
        cases h
        exact ⟨hr, hp⟩
      · cases h
    · rintro ⟨hr, hp⟩
      exact ⟨rest, a, hr, if_pos hp⟩
  verify_error {_ _ p cs _} h := by
    rcases guard_stops (fun y => p y.2 = true) (fun _ => cs) h with h | ⟨_, -, -, h⟩
    · exact .inl h
    · exact .inr ⟨_, h⟩
  map_eq r f cs := rfl
  separatedPair_eq l mark r cs := rfl
  alt_eq := firstOf_eq
  alt_passes := firstOf_passes
  context_eq name r cs := ⟨_, rfl⟩
  cut_eq r cs := rfl
  allConsuming_ok := by
    intro α r cs rest a
    simp only [trailing, bind_eq_ok_iff, Prod.exists]
    constructor
    · rintro ⟨rest', a', hr, h⟩
      split at h
      · next hp =>
        cases h
        exact ⟨hp, hp ▸ hr⟩
      · cases h
    · rintro ⟨rfl, hr⟩
      exact ⟨[], a, hr, if_pos rfl⟩
  allConsuming_error h := by
    rcases guard_stops (fun y => y.1 = []) Prod.fst h with h | ⟨_, -, -, h⟩
    · exact .inl h
    · exact .inr ⟨_, h⟩

end Combinators

namespace Command

/-- Which lines hold which command. Any lawful combinators read the same lines as the same commands,
and fail for good on every other line. -/
theorem line_language {ε : Type} (K : Combinators ε) (hK : K.Lawful) (line : String) :
    (ofLine line = .ok none ↔
      trim line.toList = [] ∨ (trim line.toList).head? = some '#') ∧
    (∀ name, ofLine line = .ok (some (.theory name)) ↔ ∃ n, Leads .theory n (trim line.toList) ∧
      n ≠ [] ∧ (∀ d ∈ n, isBlank d = false) ∧ name = String.ofList n) ∧
    (∀ l, ofLine line = .ok (some (.law l)) ↔ ∃ name lhs rhs,
      Leads .law (name ++ ':' :: (lhs ++ '=' :: rhs)) (trim line.toList) ∧ ':' ∉ name ∧
      isBlankText name = false ∧ Sides lhs rhs ∧
      l = ⟨part name, none, part lhs, part rhs, none⟩) ∧
    (∀ l r, ofLine line = .ok (some (.prove l r)) ↔ ∃ lhs rhs,
      Leads .prove (lhs ++ '=' :: rhs) (trim line.toList) ∧ Sides lhs rhs ∧ l = part lhs ∧
      r = part rhs) ∧
    (∀ rule expression, ofLine line = .ok (some (.step rule expression)) ↔ ∃ name gap e,
      Leads .step (name ++ (gap ++ ':' :: e)) (trim line.toList) ∧ name ≠ [] ∧
      (∀ d ∈ name, d ≠ ':' ∧ isBlank d = false) ∧ (∀ d ∈ gap, isGap d) ∧ isBlankText e = false ∧
      rule = String.ofList name ∧ expression = part e) ∧
    (∀ o, K.readLine line = .ok o ↔ ofLine line = .ok o) ∧
    ((∀ o, ofLine line ≠ .ok o) → ∃ e, K.readLine line = .error (.failure e)) := by
  refine ⟨ofLine_eq_none_iff, fun name => ?_, fun l => ?_, fun l r => ?_, fun rule e => ?_,
    fun o => hK.readLine_ok, fun hno => ?_⟩
  · rw [ofLine_eq_some_iff, spells_theory_iff]
  · rw [ofLine_eq_some_iff, spells_law_iff]
  · rw [ofLine_eq_some_iff, spells_prove_iff]
  · rw [ofLine_eq_some_iff, spells_step_iff]
  · cases hr : K.readLine line with
    | ok o => exact absurd (hK.readLine_ok.mp hr) (hno o)
    | error x =>
      obtain ⟨e, rfl⟩ := hK.readLine_error hr
      exact ⟨e, rfl⟩

/-- The name of a rule ends at the first colon, and an equation has one sign. -/
theorem line_language_of_trails :
    Combinators.trailing.readLine " step\t a \t:b : c " = .ok (some (.step "a" "b : c")) ∧
      ∃ e, Combinators.trailing.readLine "law a : b = c = d" = .error (.failure e) := by
  constructor
  · obtain ⟨-, -, -, -, -, hread, -⟩ :=
      line_language _ Combinators.trailing_lawful " step\t a \t:b : c "
    exact (hread _).mpr (by decide +kernel)
  · obtain ⟨-, -, -, -, -, -, hreject⟩ :=
      line_language _ Combinators.trailing_lawful "law a : b = c = d"
    have hline : ofLine "law a : b = c = d" = .error ⟨some .law, none, " c = d".toList⟩ := by
      decide +kernel
    refine hreject fun o ho => ?_
    rw [hline] at ho
    cases ho

end Command

end Equational
