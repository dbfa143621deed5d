import Equational.Proofs.Script.LineLanguage

namespace Equational

open Text Command

variable {cs rest : List Char} {k : Keyword} {e : LineError} {t : Trail} {x : Rejection Trail}

/-- The trail leads to the same place, reason and keyword. -/
structure Trail.Tells (t : Trail) (e : LineError) : Prop where
  place : ∃ reason more, t = (e.rest, reason) :: more ∧ reason.missing? = e.missing
  keyword : t.findSome? (·.2.context?) = e.keyword.map Keyword.text

theorem Trail.Tells.message (h : t.Tells e) : t.message = e.message := by
  obtain ⟨⟨reason, more, rfl, hm⟩, hk⟩ := h
  rw [Trail.message, LineError.message, hk, hm]
  cases e.keyword <;> rfl

theorem Trail.Tells.append (h : t.Tells e) (hk : e.keyword.isSome) (u : Trail) :
    (t ++ u).Tells e := by
  obtain ⟨⟨reason, more, rfl, hm⟩, hkey⟩ := h
  refine ⟨⟨reason, more ++ u, rfl, hm⟩, ?_⟩
  obtain ⟨k, hk⟩ := Option.isSome_iff_exists.mp hk
  rw [List.findSome?_append, hkey, hk]
  rfl

namespace Combinators

theorem splitBefore_mark {mark : Char} (cs : List Char) :
    splitBefore [mark] cs = (Text.cut mark cs).map fun (l, r) => (l, mark :: r) := by
  induction cs with
  | nil => rfl
  | cons c cs ih =>
    rw [splitBefore, Text.cut, ih]
    by_cases hc : c = mark
    · simp [hc]
    · simp [hc, Ne.symm hc, Function.comp_def]

/-! ### Where the readers stop -/

theorem verify_stops {α : Type} {r : LineReader Trail α} {p : α → Bool}
    (h : trailing.verify r p cs = .error x) : r cs = .error x ∨
      ∃ rest a, r cs = .ok (rest, a) ∧ p a = false ∧ x = .error [(cs, .other)] := by
  rcases guard_stops (fun y => p y.2 = true) (fun _ => cs) h with h | ⟨⟨rest, a⟩, hr, hp, hx⟩
  · exact .inl h
  · exact .inr ⟨rest, a, hr, Bool.eq_false_iff.mpr hp, hx⟩

theorem allConsuming_stops {α : Type} {r : LineReader Trail α}
    (h : trailing.allConsuming r cs = .error x) : r cs = .error x ∨
      ∃ rest a, r cs = .ok (rest, a) ∧ rest ≠ [] ∧ x = .error [(rest, .other)] := by
  rcases guard_stops (fun y => y.1 = []) Prod.fst h with h | ⟨⟨rest, a⟩, hr, hne, hx⟩
  · exact .inl h
  · exact .inr ⟨rest, a, hr, hne, hx⟩

theorem char_stops {c : Char} (h : trailing.char c cs = .error x) :
    cs.head? ≠ some c ∧ x = .error [(cs, .missing c)] := ite_stops h

theorem takeWhile1_stops {p : Char → Bool} (h : takeWhile1 p cs = .error x) :
    cs.takeWhile p = [] ∧ x = .error [(cs, .other)] :=
  (ite_stops h).imp_left not_not.mp

/-- A part in front of a mark is missing, or it is blank. -/
theorem marked_stops {mark : Char}
    (h : trailing.verify (trailing.takeUntil [mark]) (fun a => !isBlankText a) cs = .error x) :
    x = .error [(cs, .other)] ∧ ∀ a r, Text.cut mark cs = some (a, r) → isBlankText a := by
  rcases verify_stops h with h | ⟨behind, a, ha, hp, rfl⟩
  · simp only [trailing, splitBefore_mark] at h
    split at h
    · cases h
    · next hn =>
      cases h
      exact ⟨rfl, fun a r hc => by simp [hc] at hn⟩
  · refine ⟨rfl, fun a' r hc => ?_⟩
    obtain ⟨r', rfl, hcs, hfree⟩ := trailing_lawful.takeUntil_mark.mp ha
    rw [cut_eq_some_iff.mpr ⟨hcs, hfree⟩] at hc
    cases hc
    simpa using hp

/-- Behind a part that ends in front of the mark the mark is read. -/
theorem char_of_marked {mark : Char} {p : List Char → Bool} {behind a : List Char}
    (h : trailing.verify (trailing.takeUntil [mark]) p cs = .ok (behind, a)) :
    trailing.char mark behind ≠ .error x := by
  intro hc
  obtain ⟨r, rfl, -, -⟩ := trailing_lawful.takeUntil_mark.mp (trailing_lawful.verify_ok.mp h).1
  exact (char_stops hc).1 rfl

theorem equation_stops (h : trailing.equation cs = .error x) :
    ∃ rest, x = .error [(rest, .other)] ∧ readEquation k cs = .error ⟨k, none, rest⟩ := by
  rcases bind_eq_error_iff.mp (map_eq_error_iff.mp h) with hl | ⟨⟨behind, l⟩, hl, h₁⟩
  · obtain ⟨rfl, hblank⟩ := marked_stops hl
    refine ⟨cs, rfl, ?_⟩
    rw [readEquation]
    cases hc : Text.cut '=' cs with
    | none => rfl
    | some y => simp [hblank y.1 y.2 hc]
  rcases bind_eq_error_iff.mp h₁ with hc | ⟨⟨r, _⟩, hc, h₂⟩
  · exact absurd hc (char_of_marked hl)
  obtain ⟨rfl, hfree, hbl, -, -⟩ := trailing_lawful.marked_ok.mp ⟨hl, hc⟩
  rcases bind_eq_error_iff.mp h₂ with hr | ⟨⟨_, _⟩, -, h₃⟩
  · rcases verify_stops hr with hrest | ⟨_, _, hrest, hbr, rfl⟩
    · cases (trailing_lawful.rest_eq r).symm.trans hrest
    · cases (trailing_lawful.rest_eq r).symm.trans hrest
      refine ⟨r, rfl, ?_⟩
      rw [readEquation, cut_eq_some_iff.mpr ⟨rfl, hfree⟩]
      simp only [Bool.not_eq_true'] at hbl
      have hbad : (isBlankText r || r.contains '=') = true := by
        rw [← Bool.not_eq_false, Bool.or_eq_false_iff]
        simpa [Bool.and_eq_false_iff] using hbr
      simp only [hbl, hbad, Bool.false_eq_true, if_false, if_true]
  · cases h₃

/-- The body of a phrase is rejected at a place and for a reason, and so is it when it is read in one
pass. -/
def Stops (k : Keyword) (cs : List Char) (x : Rejection Trail) : Prop :=
  ∃ rest reason, x = .error [(rest, reason)] ∧ reason.context? = none ∧
    readBody k cs = .error ⟨some k, reason.missing?, rest⟩

theorem lawBody_stops (h : trailing.lawBody cs = .error x) : Stops .law cs x := by
  rcases bind_eq_error_iff.mp h with hn | ⟨⟨behind, name⟩, hn, h₁⟩
  · -- there is no colon, or a blank name in front of it
    obtain ⟨rfl, hblank⟩ := marked_stops hn
    refine ⟨cs, .other, rfl, rfl, ?_⟩
    rw [readBody, readLaw]
    cases hc : Text.cut ':' cs with
    | none => rfl
    | some y => simp [hblank y.1 y.2 hc, Reason.missing?]
  rcases bind_eq_error_iff.mp h₁ with hc | ⟨⟨r, _⟩, hc, h₂⟩
  · exact absurd hc (char_of_marked hn)
  obtain ⟨rfl, hfree, hbl, -, -⟩ := trailing_lawful.marked_ok.mp ⟨hn, hc⟩
  rcases bind_eq_error_iff.mp h₂ with he | ⟨⟨_, _⟩, -, h₃⟩
  · obtain ⟨rest, rfl, hr⟩ := equation_stops (k := .law) he
    refine ⟨rest, .other, rfl, rfl, ?_⟩
    rw [readBody, readLaw, cut_eq_some_iff.mpr ⟨rfl, hfree⟩]
    simp only [Bool.not_eq_true'] at hbl
    simp only [hbl, Bool.false_eq_true, if_false]
    exact map_eq_error_iff.mpr hr
  · cases h₃

theorem stepBody_stops (h : trailing.stepBody cs = .error x) : Stops .step cs x := by
  rcases bind_eq_error_iff.mp h with hn | ⟨⟨behind, name⟩, hn, h₁⟩
  · -- there is no name
    obtain ⟨ht, rfl⟩ := takeWhile1_stops hn
    simp only [Bool.not_not] at ht
    refine ⟨cs, .other, rfl, rfl, ?_⟩
    rw [readBody, readStep, ht]
    rfl
  obtain ⟨hne, ht, hd⟩ := trailing_lawful.takeTill1_ok.mp hn
  simp only [Bool.not_not] at ht hd
  rcases bind_eq_error_iff.mp h₁ with hg | ⟨⟨colon, gap⟩, hg, h₂⟩
  · cases hg
  cases hg
  rcases bind_eq_error_iff.mp h₂ with hc | ⟨⟨expression, _⟩, hc, h₃⟩
  · -- something other than a colon follows the gap
    obtain ⟨hhead, rfl⟩ := char_stops hc
    refine ⟨_, _, rfl, rfl, ?_⟩
    rw [readBody, readStep, ht, hd]
    split
    · exact absurd rfl hne
    · next hcolon => simp [hcolon] at hhead
    · rfl
  obtain ⟨hcolon, rfl⟩ := trailing_lawful.char_ok.mp hc
  rcases bind_eq_error_iff.mp h₃ with he | ⟨⟨_, _⟩, -, h₄⟩
  · rcases verify_stops he with hrest | ⟨_, _, hrest, hblank, rfl⟩
    · cases (trailing_lawful.rest_eq expression).symm.trans hrest
    · cases (trailing_lawful.rest_eq expression).symm.trans hrest
      refine ⟨expression, .other, rfl, rfl, ?_⟩
      rw [readBody, readStep, ht, hd, hcolon]
      cases name with
      | nil => exact absurd rfl hne
      | cons => exact if_pos (by simpa using hblank)
  · cases h₄

theorem body_stops (h : trailing.body k cs = .error x) : Stops k cs x := by
  cases k with
  | theory =>
    obtain ⟨ht, rfl⟩ := takeWhile1_stops (map_eq_error_iff.mp h)
    refine ⟨cs, .other, rfl, rfl, ?_⟩
    rw [readBody, readTheory, ht]
    rfl
  | law => exact lawBody_stops h
  | prove =>
    obtain ⟨rest, rfl, hr⟩ := equation_stops (k := .prove) (map_eq_error_iff.mp h)
    exact ⟨rest, .other, rfl, rfl, map_eq_error_iff.mpr hr⟩
  | step => exact stepBody_stops h

/-! ### The alternative that got furthest -/

theorem readTrimmed_append (k : Keyword) (rest : List Char) :
    readTrimmed (k.text.toList ++ rest) =
      if rest.head?.any isGap then readBody k (rest.dropWhile isGap)
      else .error ⟨k, none, rest⟩ := by
  rw [readTrimmed, Keyword.front?_eq_some_iff.mpr (List.prefix_append _ _)]
  simp only [List.drop_left]

theorem head?_any_iff {p : Char → Bool} : cs.head?.any p = true ↔ cs.takeWhile p ≠ [] := by
  cases cs with
  | nil => simp
  | cons c cs => cases hc : p c <;> simp [hc]

theorem phrase_stops (h : trailing.phrase k (k.text.toList ++ rest) = .error x) :
    ∃ place reason, (x = .failure [(place, reason)] ∨ x = .error [(rest, reason)] ∧ place = rest) ∧
      reason.context? = none ∧
      readTrimmed (k.text.toList ++ rest) = .error ⟨some k, reason.missing?, place⟩ := by
  rw [readTrimmed_append]
  rcases bind_eq_error_iff.mp h with ht | ⟨⟨behind, _⟩, ht, h₁⟩
  · rw [trailing_lawful.tag_ok.mpr ⟨rfl, rfl⟩] at ht
    cases ht
  obtain ⟨hb, -⟩ := trailing_lawful.tag_ok.mp ht
  obtain rfl := List.append_cancel_left hb
  rcases bind_eq_error_iff.mp h₁ with hg | ⟨⟨body, gap⟩, hg, h₂⟩
  · obtain ⟨hgap, rfl⟩ := takeWhile1_stops hg
    exact ⟨rest, .other, .inr ⟨rfl, rfl⟩, rfl, if_neg fun hany => head?_any_iff.mp hany hgap⟩
  · obtain ⟨hne, hgap, hbody⟩ := trailing_lawful.space1_ok.mp hg
    obtain ⟨y, hy, rfl⟩ := mapError_eq_error_iff.mp h₂
    obtain ⟨place, reason, rfl, hr, hread⟩ := body_stops hy
    refine ⟨place, reason, .inl rfl, hr, ?_⟩
    rw [if_pos (head?_any_iff.mpr (hgap ▸ hne)), hbody, hread]

/-- The trail of a phrase whose keyword is not there. -/
def missed (k : Keyword) (cs : List Char) : Trail := [(cs, .other), (cs, .context k.text)]

theorem alternative_misses (h : ¬ k.text.toList <+: cs) :
    trailing.alternative k cs = .error (.error (missed k cs)) := by
  have ht : trailing.tag k.text.toList cs = stop .other cs :=
    if_neg fun hp => h (List.isPrefixOf_iff_prefix.mp hp)
  have hp : trailing.phrase k cs = .error (.error [(cs, .other)]) := by
    rw [phrase, ht]
    rfl
  show (trailing.phrase k cs).mapError _ = _
  rw [hp]
  rfl

/-- Of a trail that has not left the start and another one the other one is kept. -/
theorem further_eq_right {ds : List Char} {reason : Reason} {more : Trail}
    (ht : ∀ p ∈ t.head?, p.1 = cs)
    (hds : (String.ofList ds).utf8ByteSize ≤ (String.ofList cs).utf8ByteSize) :
    t.further ((ds, reason) :: more) = (ds, reason) :: more := by
  cases t with
  | nil => rfl
  | cons p t =>
    obtain ⟨start, _⟩ := p
    obtain rfl : start = cs := ht _ rfl
    exact if_neg (Nat.not_lt.mpr hds)

theorem firstOf_missed {ks : List Keyword} (rs : List (LineReader Trail Command))
    (hks : ∀ k ∈ ks, ¬ k.text.toList <+: cs) (ht : ∀ p ∈ t.head?, p.1 = cs) :
    ∃ u : Trail, (∀ p ∈ u.head?, p.1 = cs) ∧
      firstOf t (ks.map trailing.alternative ++ rs) cs = firstOf u rs cs := by
  induction ks generalizing t with
  | nil => exact ⟨t, ht, rfl⟩
  | cons k ks ih =>
    rw [List.map_cons, List.cons_append, firstOf, alternative_misses (hks k (by simp))]
    simp only [missed, further_eq_right ht le_rfl]
    exact ih (fun k hk => hks k (by simp [hk])) (by simp)

/-- A trail that is ahead of those of the missed phrases is kept to the end. -/
theorem firstOf_ahead {ks : List Keyword} (hks : ∀ k ∈ ks, ¬ k.text.toList <+: cs)
    (ht : ∀ k, t.further (missed k cs) = t) :
    firstOf t (ks.map trailing.alternative) cs = .error (.error (t ++ [(cs, .other)])) := by
  induction ks with
  | nil => rfl
  | cons k ks ih =>
    rw [List.map_cons, firstOf, alternative_misses (hks k (by simp))]
    simp only [ht k]
    exact ih fun k hk => hks k (by simp [hk])

/-- If all phrases are missed, the last one is told. -/
theorem alt_missed (h : ∀ k : Keyword, ¬ k.text.toList <+: cs) :
    trailing.alt (Keyword.all.map trailing.alternative) cs =
      .error (.error (missed .step cs ++ [(cs, .other)])) := by
  have hks : ∀ k ∈ [Keyword.theory, .law, .prove], ¬ k.text.toList <+: cs := fun k _ => h k
  obtain ⟨u, hu, hall⟩ := firstOf_missed (t := []) [trailing.alternative .step] hks (by simp)
  refine hall.trans ?_
  rw [firstOf, alternative_misses (h .step)]
  simp only [missed, further_eq_right hu le_rfl]
  rfl

/-- A phrase whose keyword is there gets further than all that miss theirs. -/
theorem alt_ahead {reason : Reason} {more : Trail}
    (h : trailing.alternative k (k.text.toList ++ rest) =
      .error (.error ((rest, reason) :: more))) :
    trailing.alt (Keyword.all.map trailing.alternative) (k.text.toList ++ rest) =
      .error (.error ((rest, reason) :: more ++ [(k.text.toList ++ rest, .other)])) := by
  have hmem : k ∈ Keyword.all := by cases k <;> decide
  obtain ⟨before, after, hall⟩ := List.append_of_mem hmem
  have hnodup : Keyword.all.Nodup := by decide
  have hfresh : k ∉ before ++ after :=
    (List.nodup_cons.mp (List.perm_middle.nodup_iff.mp (hall ▸ hnodup))).1
  have hmiss (j : Keyword) (hj : j ∈ before ++ after) :
      ¬ j.text.toList <+: k.text.toList ++ rest := by
    intro hp
    have hk := Keyword.front?_eq_some_iff.mpr (List.prefix_append k.text.toList rest)
    obtain rfl := Option.some.inj ((Keyword.front?_eq_some_iff.mpr hp).symm.trans hk)
    exact hfresh hj
  have hlt : (String.ofList rest).utf8ByteSize <
      (String.ofList (k.text.toList ++ rest)).utf8ByteSize := by
    have hk : 0 < k.text.utf8ByteSize := by cases k <;> decide
    rw [String.ofList_append, String.utf8ByteSize_append, String.ofList_toList]
    omega
  show firstOf [] (Keyword.all.map trailing.alternative) _ = _
  rw [hall, List.map_append, List.map_cons]
  obtain ⟨u, hu, hb⟩ := firstOf_missed (t := [])
    (trailing.alternative k :: after.map trailing.alternative)
    (fun j hj => hmiss j (List.mem_append_left _ hj)) (by simp)
  rw [hb, firstOf, h]
  simp only [further_eq_right hu hlt.le]
  exact firstOf_ahead (fun j hj => hmiss j (List.mem_append_right _ hj)) fun j => if_pos hlt

theorem alternative_stops (h : trailing.alternative k (k.text.toList ++ rest) = .error x) :
    ∃ t e, readTrimmed (k.text.toList ++ rest) = .error e ∧ t.Tells e ∧ e.keyword = some k ∧
      (x = .failure t ∨ x = .error t ∧ ∃ reason more, t = (rest, reason) :: more) := by
  obtain ⟨y, hy, rfl⟩ := mapError_eq_error_iff.mp h
  obtain ⟨place, reason, hy, hr, hread⟩ := phrase_stops hy
  refine ⟨[(place, reason), (k.text.toList ++ rest, .context k.text)], _, hread,
    ⟨⟨reason, _, rfl, rfl⟩, ?_⟩, rfl, ?_⟩
  · simp only [List.findSome?_cons, hr]
    rfl
  · rcases hy with rfl | ⟨rfl, rfl⟩
    · exact .inl rfl
    · exact .inr ⟨rfl, reason, _, rfl⟩

/-- Only behind the name of a theory a body may leave something over. -/
theorem body_leaves {c : Command} (h : trailing.body k cs = .ok (rest, c)) (hne : rest ≠ []) :
    readBody k cs = .error ⟨none, none, rest⟩ := by
  cases k with
  | theory =>
    obtain ⟨⟨_, name⟩, hn, hc⟩ := map_eq_ok_iff.mp h
    cases hc
    obtain ⟨hname, ht, hd⟩ := trailing_lawful.takeTill1_ok.mp hn
    rw [readBody, readTheory, ht, hd]
    cases name with
    | nil => exact absurd rfl hname
    | cons d name =>
      cases rest with
      | nil => exact absurd rfl hne
      | cons => rfl
  | law => exact absurd (trailing_lawful.lawBody_ok.mp h).1 hne
  | prove =>
    obtain ⟨⟨_, _⟩, he, hc⟩ := map_eq_ok_iff.mp h
    cases hc
    exact absurd (trailing_lawful.equation_ok.mp he).1 hne
  | step => exact absurd (trailing_lawful.stepBody_ok.mp h).1 hne

theorem phrase_leaves {c : Command} {left : List Char}
    (h : trailing.phrase k (k.text.toList ++ rest) = .ok (left, c)) (hne : left ≠ []) :
    readTrimmed (k.text.toList ++ rest) = .error ⟨none, none, left⟩ := by
  obtain ⟨⟨behind, _⟩, ht, h₁⟩ := bind_eq_ok_iff.mp h
  obtain ⟨⟨body, gap⟩, hg, h₂⟩ := bind_eq_ok_iff.mp h₁
  obtain rfl := List.append_cancel_left (trailing_lawful.tag_ok.mp ht).1
  obtain ⟨hgne, hgap, hbody⟩ := trailing_lawful.space1_ok.mp hg
  rw [readTrimmed_append, if_pos (head?_any_iff.mpr (hgap ▸ hgne)), hbody]
  exact body_leaves (mapError_eq_ok_iff.mp h₂) hne

/-- What the alternatives tell if they reject the text, and what they leave if they do not. -/
theorem alt_told (cs : List Char) :
    (∃ x t e, trailing.alt (Keyword.all.map trailing.alternative) cs = .error x ∧
      x.final = .failure t ∧ readTrimmed cs = .error e ∧ t.Tells e) ∨
    ∃ left c, trailing.alt (Keyword.all.map trailing.alternative) cs = .ok (left, c) ∧
      (left ≠ [] → readTrimmed cs = .error ⟨none, none, left⟩) := by
  cases hf : Keyword.front? cs with
  | none =>
    have hmiss (k : Keyword) : ¬ k.text.toList <+: cs := by
      intro hp
      rw [Keyword.front?_eq_some_iff.mpr hp] at hf
      cases hf
    have hread : readTrimmed cs = .error ⟨some .step, none, cs⟩ := by rw [readTrimmed, hf]
    exact .inl ⟨_, _, _, alt_missed hmiss, rfl, hread, ⟨.other, _, rfl, rfl⟩, rfl⟩
  | some k =>
    obtain ⟨rest, rfl⟩ := Keyword.prefix_of_front? hf
    have hk := List.prefix_append k.text.toList rest
    cases ha : trailing.alternative k (k.text.toList ++ rest) with
    | ok y =>
      have hp : ¬ (trailing.alternative k).Passes (k.text.toList ++ rest) := by
        rintro ⟨_, he⟩
        cases ha.symm.trans he
      exact .inr ⟨y.1, y.2, (trailing_lawful.alt_eq_alternative hk hp).trans ha,
        phrase_leaves (trailing_lawful.alternative_ok.mp ha)⟩
    | error x =>
      obtain ⟨t, e, hread, ht, hkey, rfl | ⟨rfl, reason, more, rfl⟩⟩ := alternative_stops ha
      · -- the keyword has been committed to
        have hp : ¬ (trailing.alternative k).Passes (k.text.toList ++ rest) := by
          rintro ⟨_, he⟩
          cases ha.symm.trans he
        exact .inl ⟨_, t, e, (trailing_lawful.alt_eq_alternative hk hp).trans ha, rfl, hread, ht⟩
      · exact .inl ⟨_, _, e, alt_ahead ha, rfl, hread, ht.append (by rw [hkey]; rfl) _⟩

theorem command_stops (h : trailing.command cs = .error x) :
    ∃ t e, x = .failure t ∧ readTrimmed cs = .error e ∧ t.Tells e := by
  obtain ⟨y, hy, rfl⟩ := mapError_eq_error_iff.mp h
  rcases alt_told cs with ⟨z, t, e, halt, hz, hread, ht⟩ | ⟨left, c, halt, hleft⟩
  · rcases allConsuming_stops hy with ha | ⟨_, _, ha, -⟩
    · cases halt.symm.trans ha
      exact ⟨t, e, hz, hread, ht⟩
    · cases halt.symm.trans ha
  · rcases allConsuming_stops hy with ha | ⟨_, _, ha, hne, rfl⟩
    · cases halt.symm.trans ha
    · cases halt.symm.trans ha
      exact ⟨_, _, rfl, hleft hne, ⟨.other, _, rfl, rfl⟩, rfl⟩

/-- What is told about a rejected line is what its trail tells. -/
theorem message_of_trail {line : String} (h : trailing.readLine line = .error x) :
    ∃ t e, x = .failure t ∧ ofLine line = .error e ∧ t.message = e.message := by
  rw [readLine] at h
  rw [ofLine]
  cases hcs : trim line.toList with
  | nil =>
    rw [hcs] at h
    cases h
  | cons c cs =>
    rw [hcs] at h
    by_cases hc : c = '#'
    · simp only [if_pos hc] at h
      cases h
    · simp only [if_neg hc] at h ⊢
      obtain ⟨t, e, rfl, hread, ht⟩ := command_stops (map_eq_error_iff.mp h)
      exact ⟨t, e, rfl, map_eq_error_iff.mpr hread, ht.message⟩

end Combinators

end Equational
