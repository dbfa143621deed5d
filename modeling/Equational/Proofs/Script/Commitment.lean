import Equational.Proofs.Script.LineGrammar
import Equational.Script.Combinators

/-! Command lines read by parser combinators. Whichever combinators are taken, they read the lines
of the grammar, as the commands that these lines spell, and every other line fails for good: no
reader asks for more text, and the outermost cut leaves no error to recover from. -/

namespace Equational

open Text Command

variable {ε α β : Type}

/-- What a sequence of readers rejects is left to other ones if each of them leaves it. -/
theorem LineReader.Recovers.bind {r : LineReader ε α} (hr : r.Recovers) {cs : List Char}
    {f : List Char × α → Except (Rejection ε) β} {x : Rejection ε}
    (hf : ∀ y, f y = .error x → ∃ e, x = .error e) (h : (r cs >>= f) = .error x) :
    ∃ e, x = .error e := by
  rcases bind_eq_error_iff.mp h with h | ⟨y, -, h⟩
  · exact hr cs x h
  · exact hf y h

namespace Combinators.Lawful

variable {K : Combinators ε} (hK : K.Lawful) {cs rest : List Char}

include hK

/-! ### What is read -/

theorem takeUntil_mark {mark : Char} {a : List Char} :
    K.takeUntil [mark] cs = .ok (rest, a) ↔
      ∃ r, rest = mark :: r ∧ cs = a ++ mark :: r ∧ mark ∉ a := by
  rw [hK.takeUntil_ok]
  constructor
  · rintro ⟨rfl, ⟨r, rfl⟩, hleast⟩
    refine ⟨r, rfl, rfl, fun hm => ?_⟩
    obtain ⟨before, after, rfl⟩ := List.append_of_mem hm
    have hlen := hleast before (mark :: after ++ ([mark] ++ r)) (by simp) ⟨_, rfl⟩
    simp only [List.length_append, List.length_cons] at hlen
    omega
  · rintro ⟨r, rfl, rfl, hm⟩
    refine ⟨rfl, ⟨r, rfl⟩, ?_⟩
    rintro a' rest' he ⟨r', rfl⟩
    rcases List.append_eq_append_iff.mp he with ⟨c, rfl, -⟩ | ⟨c, rfl, hc⟩
    · simp
    · -- an earlier occurrence would put the mark into the text in front of the first one
      cases c with
      | nil => simp
      | cons d c =>
        obtain ⟨rfl, -⟩ := List.cons.inj hc
        exact absurd (by simp) hm

/-- A part that ends in front of the first mark, and then the mark. -/
theorem marked_ok {mark c : Char} {p : List Char → Bool} {a behind r : List Char} :
    K.verify (K.takeUntil [mark]) p cs = .ok (behind, a) ∧ K.char mark behind = .ok (r, c) ↔
      cs = a ++ mark :: r ∧ mark ∉ a ∧ p a = true ∧ behind = mark :: r ∧ c = mark := by
  rw [hK.verify_ok, hK.takeUntil_mark, hK.char_ok]
  constructor
  · rintro ⟨⟨⟨r', rfl, rfl, hfree⟩, hp⟩, he, rfl⟩
    obtain rfl : r' = r := (List.cons.inj he).2
    exact ⟨rfl, hfree, hp, rfl, rfl⟩
  · rintro ⟨rfl, hfree, hp, rfl, rfl⟩
    exact ⟨⟨⟨r, rfl, rfl, hfree⟩, hp⟩, rfl, rfl⟩

theorem equation_ok {s : String × String} :
    K.equation cs = .ok (rest, s) ↔ rest = [] ∧
      ∃ l r, cs = l ++ '=' :: r ∧ Sides l r ∧ (part l, part r) = s := by
  rw [equation, hK.map_eq, map_eq_ok_iff, hK.separatedPair_eq]
  constructor
  · rintro ⟨_, h, he⟩
    obtain ⟨⟨behind, l⟩, hl, h⟩ := bind_eq_ok_iff.mp h
    obtain ⟨⟨r, _⟩, hc, h⟩ := bind_eq_ok_iff.mp h
    obtain ⟨⟨_, _⟩, hr, h⟩ := bind_eq_ok_iff.mp h
    obtain ⟨rfl, hfree, hbl, -, -⟩ := hK.marked_ok.mp ⟨hl, hc⟩
    obtain ⟨hrest, hbr⟩ := hK.verify_ok.mp hr
    cases (hK.rest_eq r).symm.trans hrest
    cases h
    cases he
    simp only [Bool.and_eq_true, Bool.not_eq_true', List.contains_eq_mem, decide_eq_false_iff_not]
      at hbl hbr
    exact ⟨rfl, l, r, rfl, ⟨hfree, hbr.2, hbl, hbr.1⟩, rfl⟩
  · rintro ⟨rfl, l, r, rfl, hs, rfl⟩
    obtain ⟨hl, hc⟩ := (hK.marked_ok (p := fun l => !isBlankText l)).mpr
      ⟨rfl, hs.left_free, by simp [hs.left], rfl, rfl⟩
    have hr : (!isBlankText r && !r.contains '=') = true := by simp [hs.right, hs.right_free]
    refine ⟨([], l, r), bind_eq_ok_iff.mpr ⟨_, hl, bind_eq_ok_iff.mpr ⟨_, hc, ?_⟩⟩, rfl⟩
    exact bind_eq_ok_iff.mpr ⟨_, hK.verify_ok.mpr ⟨hK.rest_eq r, hr⟩, rfl⟩

theorem lawBody_ok {c : Command} :
    K.lawBody cs = .ok (rest, c) ↔ rest = [] ∧ Body .law cs c := by
  rw [lawBody]
  constructor
  · intro h
    obtain ⟨⟨behind, name⟩, hn, h⟩ := bind_eq_ok_iff.mp h
    obtain ⟨⟨r, _⟩, hc, h⟩ := bind_eq_ok_iff.mp h
    obtain ⟨⟨_, _, _⟩, he, h⟩ := bind_eq_ok_iff.mp h
    obtain ⟨rfl, hfree, hname, -, -⟩ := hK.marked_ok.mp ⟨hn, hc⟩
    obtain ⟨rfl, lhs, rhs, rfl, hs, he⟩ := hK.equation_ok.mp he
    cases he
    cases h
    exact ⟨rfl, .law hfree (by simpa using hname) hs⟩
  · rintro ⟨rfl, hb⟩
    cases hb with
    | @law name l r hfree hname hs =>
      obtain ⟨hn, hc⟩ := (hK.marked_ok (p := fun name => !isBlankText name)).mpr
        ⟨rfl, hfree, by simp [hname], rfl, rfl⟩
      have he := hK.equation_ok.mpr ⟨rfl, l, r, rfl, hs, rfl⟩
      refine bind_eq_ok_iff.mpr ⟨_, hn, bind_eq_ok_iff.mpr ⟨_, hc, ?_⟩⟩
      exact bind_eq_ok_iff.mpr ⟨_, he, rfl⟩

theorem stepBody_ok {c : Command} :
    K.stepBody cs = .ok (rest, c) ↔ rest = [] ∧ Body .step cs c := by
  rw [stepBody]
  constructor
  · intro h
    obtain ⟨⟨behind, name⟩, hname, h⟩ := bind_eq_ok_iff.mp h
    obtain ⟨⟨colon, gap⟩, hgap, h⟩ := bind_eq_ok_iff.mp h
    obtain ⟨⟨expression, _⟩, hcolon, h⟩ := bind_eq_ok_iff.mp h
    obtain ⟨⟨_, _⟩, he, h⟩ := bind_eq_ok_iff.mp h
    obtain ⟨hne, ht, hd⟩ := hK.takeTill1_ok.mp hname
    obtain ⟨rfl, rfl⟩ := hK.char_ok.mp hcolon
    obtain ⟨hrest, hblank⟩ := hK.verify_ok.mp he
    cases (hK.rest_eq expression).symm.trans hrest
    cases h
    rw [hK.space0_eq, Except.ok.injEq, Prod.mk.injEq] at hgap
    simp only [Bool.not_not] at ht hd
    obtain ⟨hcs, hn, -⟩ := takeWhile_dropWhile_iff.mp ⟨ht, hd⟩
    obtain ⟨hbehind, hg, -⟩ := takeWhile_dropWhile_iff.mp ⟨hgap.2, hgap.1⟩
    rw [hcs, hbehind]
    exact ⟨rfl, .step hne hn hg (by simpa using hblank)⟩
  · rintro ⟨rfl, hb⟩
    cases hb with
    | @step name gap expression hne hn hg he =>
      obtain ⟨ht, hd⟩ := takeWhile_dropWhile_iff.mpr ⟨rfl, hn, isRuleChar_head? hg⟩
      have hname : K.takeTill1 (!isRuleChar ·) (name ++ (gap ++ ':' :: expression)) =
          .ok (gap ++ ':' :: expression, name) :=
        hK.takeTill1_ok.mpr ⟨hne, by simpa only [Bool.not_not] using ht,
          by simpa only [Bool.not_not] using hd⟩
      have hmark : ∀ d ∈ (':' :: expression).head?, isGap d = false := by simp [isGap]
      obtain ⟨hgt, hgd⟩ := takeWhile_dropWhile_iff.mpr ⟨rfl, hg, hmark⟩
      have hgap := hK.space0_eq (gap ++ ':' :: expression)
      rw [hgt, hgd] at hgap
      have hexp : K.verify K.rest (fun e => !isBlankText e) expression = .ok ([], expression) :=
        hK.verify_ok.mpr ⟨hK.rest_eq expression, by simp [he]⟩
      refine bind_eq_ok_iff.mpr ⟨_, hname, bind_eq_ok_iff.mpr ⟨_, hgap, ?_⟩⟩
      refine bind_eq_ok_iff.mpr ⟨_, hK.char_ok.mpr ⟨rfl, rfl⟩, ?_⟩
      exact bind_eq_ok_iff.mpr ⟨_, hexp, rfl⟩

theorem body_ok {k : Keyword} {c : Command} : K.body k cs = .ok ([], c) ↔ Body k cs c := by
  cases k with
  | theory =>
    simp only [body, hK.map_eq, map_eq_ok_iff, hK.takeTill1_ok, Prod.exists, Prod.mk.injEq]
    constructor
    · rintro ⟨_, name, ⟨hne, ht, hd⟩, rfl, rfl⟩
      obtain ⟨hcs, hn, -⟩ := takeWhile_dropWhile_iff.mp ⟨ht, hd⟩
      rw [hcs, List.append_nil]
      exact .theory hne (by simpa using hn)
    · intro hb
      cases hb with
      | theory hne hn =>
        obtain ⟨ht, hd⟩ := (takeWhile_dropWhile_iff (p := (!isBlank ·)) (r := [])).mpr
          ⟨(List.append_nil cs).symm, by simpa using hn, by simp⟩
        exact ⟨[], cs, ⟨hne, ht, hd⟩, rfl, rfl⟩
  | law =>
    rw [body, hK.lawBody_ok]
    simp
  | prove =>
    simp only [body, hK.map_eq, map_eq_ok_iff, hK.equation_ok, Prod.exists, Prod.mk.injEq]
    constructor
    · rintro ⟨_, _, _, ⟨-, l, r, rfl, hs, rfl, rfl⟩, rfl, rfl⟩
      exact .prove hs
    · intro hb
      cases hb with
      | @prove l r hs => exact ⟨[], _, _, ⟨rfl, l, r, rfl, hs, rfl, rfl⟩, rfl, rfl⟩
  | step =>
    rw [body, hK.stepBody_ok]
    simp

theorem phrase_ok {k : Keyword} {c : Command} :
    K.phrase k cs = .ok ([], c) ↔ ∃ body, Leads k body cs ∧ Body k body c := by
  simp only [phrase, bind_eq_ok_iff, hK.tag_ok, hK.space1_ok, hK.cut_eq, mapError_eq_ok_iff,
    hK.body_ok, Prod.exists]
  constructor
  · rintro ⟨_, _, ⟨rfl, rfl⟩, body, gap, ⟨hne, hg⟩, hb⟩
    obtain ⟨rfl, hgap, hhead⟩ := takeWhile_dropWhile_iff.mp hg
    exact ⟨body, ⟨gap, rfl, hne, hgap, hhead⟩, hb⟩
  · rintro ⟨body, ⟨gap, rfl, hne, hgap, hhead⟩, hb⟩
    exact ⟨_, _, ⟨rfl, rfl⟩, body, gap,
      ⟨hne, takeWhile_dropWhile_iff.mpr ⟨rfl, hgap, hhead⟩⟩, hb⟩

/-! ### What is rejected -/

theorem rest_recovers : K.rest.Recovers := by
  intro cs x h
  rw [hK.rest_eq] at h
  cases h

theorem space0_recovers : K.space0.Recovers := by
  intro cs x h
  rw [hK.space0_eq] at h
  cases h

theorem verify_recovers {r : LineReader ε α} {p : α → Bool} (hr : r.Recovers) :
    (K.verify r p).Recovers := by
  intro cs x h
  rcases hK.verify_error h with h | h
  · exact hr cs x h
  · exact h

theorem map_recovers {r : LineReader ε α} {f : α → β} (hr : r.Recovers) :
    (K.map r f).Recovers := by
  intro cs x h
  rw [hK.map_eq] at h
  exact hr cs x (map_eq_error_iff.mp h)

theorem equation_recovers : K.equation.Recovers := by
  refine hK.map_recovers fun cs x h => ?_
  rw [hK.separatedPair_eq] at h
  refine (hK.verify_recovers (hK.takeUntil_recovers _)).bind (fun ⟨_, _⟩ => ?_) h
  refine (hK.char_recovers _).bind fun ⟨_, _⟩ => ?_
  refine (hK.verify_recovers hK.rest_recovers).bind fun ⟨_, _⟩ => ?_
  intro h
  cases h

theorem lawBody_recovers : K.lawBody.Recovers := by
  intro cs x h
  refine (hK.verify_recovers (hK.takeUntil_recovers _)).bind (fun ⟨_, _⟩ => ?_) h
  refine (hK.char_recovers _).bind fun ⟨_, _⟩ => ?_
  refine hK.equation_recovers.bind fun ⟨_, _⟩ => ?_
  intro h
  cases h

theorem stepBody_recovers : K.stepBody.Recovers := by
  intro cs x h
  refine (hK.takeTill1_recovers _).bind (fun ⟨_, _⟩ => ?_) h
  refine hK.space0_recovers.bind fun ⟨_, _⟩ => ?_
  refine (hK.char_recovers _).bind fun ⟨_, _⟩ => ?_
  refine (hK.verify_recovers hK.rest_recovers).bind fun ⟨_, _⟩ => ?_
  intro h
  cases h

theorem body_recovers (k : Keyword) : (K.body k).Recovers := by
  cases k with
  | theory => exact hK.map_recovers (hK.takeTill1_recovers _)
  | law => exact hK.lawBody_recovers
  | prove => exact hK.map_recovers hK.equation_recovers
  | step => exact hK.stepBody_recovers

/-- A phrase does not ask for more text. -/
theorem phrase_ne_incomplete (k : Keyword) (cs : List Char) :
    K.phrase k cs ≠ .error .incomplete := by
  intro h
  rw [phrase, bind_eq_error_iff] at h
  rcases h with h | ⟨⟨behind, _⟩, -, h⟩
  · exact absurd (hK.tag_recovers _ _ _ h) (by simp)
  rcases bind_eq_error_iff.mp h with h | ⟨⟨body, _⟩, -, h⟩
  · exact absurd (hK.space1_recovers _ _ h) (by simp)
  -- the body leaves what it rejects to other readers, until the cut makes that final
  obtain ⟨y, hy, hf⟩ := mapError_eq_error_iff.mp ((hK.cut_eq _ _).symm.trans h)
  obtain ⟨e, rfl⟩ := hK.body_recovers k _ _ hy
  cases hf

/-- Without its keyword a phrase leaves the text to the other ones. -/
theorem phrase_passes {k : Keyword} (h : ¬ k.text.toList <+: cs) : (K.phrase k).Passes cs := by
  cases hr : K.tag k.text.toList cs with
  | ok y =>
    obtain ⟨rest, a⟩ := y
    exact absurd ⟨rest, (hK.tag_ok.mp hr).1.symm⟩ h
  | error x =>
    obtain ⟨e, rfl⟩ := hK.tag_recovers _ _ _ hr
    exact ⟨e, bind_eq_error_iff.mpr (.inl hr)⟩

theorem alternative_ok {k : Keyword} {y : List Char × Command} :
    K.alternative k cs = .ok y ↔ K.phrase k cs = .ok y := by
  obtain ⟨f, hf⟩ := hK.context_eq k.text (K.phrase k) cs
  rw [alternative, hf, mapError_eq_ok_iff]

theorem alternative_passes {k : Keyword} (h : (K.phrase k).Passes cs) :
    (K.alternative k).Passes cs := by
  obtain ⟨f, hf⟩ := hK.context_eq k.text (K.phrase k) cs
  obtain ⟨e, he⟩ := h
  exact ⟨f e, hf.trans (mapError_eq_error_iff.mpr ⟨_, he, rfl⟩)⟩

theorem alternative_ne_incomplete (k : Keyword) (cs : List Char) :
    K.alternative k cs ≠ .error .incomplete := by
  intro h
  obtain ⟨f, hf⟩ := hK.context_eq k.text (K.phrase k) cs
  obtain ⟨y, hy, he⟩ := mapError_eq_error_iff.mp (hf.symm.trans h)
  cases y with
  | error => cases he
  | failure => cases he
  | incomplete => exact hK.phrase_ne_incomplete k cs hy

/-- The phrase of the keyword that a text begins with decides on it, since all others leave it. -/
theorem alt_eq_alternative {k : Keyword} (hk : k.text.toList <+: cs)
    (hp : ¬ (K.alternative k).Passes cs) :
    K.alt (Keyword.all.map K.alternative) cs = K.alternative k cs := by
  have hmem : k ∈ Keyword.all := by cases k <;> decide
  obtain ⟨before, after, hall, hfresh⟩ := List.eq_append_cons_of_mem hmem
  rw [hall, List.map_append, List.map_cons]
  refine hK.alt_eq (fun q hq => ?_) hp
  obtain ⟨j, hj, rfl⟩ := List.mem_map.mp hq
  refine hK.alternative_passes (hK.phrase_passes fun hpre => hfresh ?_)
  have hjk := (Keyword.front?_eq_some_iff.mpr hpre).symm.trans (Keyword.front?_eq_some_iff.mpr hk)
  rwa [← Option.some.inj hjk]

/-- A text that none of the phrases decides on is left to other readers. -/
theorem alt_cases (cs : List Char) :
    (K.alt (Keyword.all.map K.alternative)).Passes cs ∨
      ∃ k : Keyword, K.alt (Keyword.all.map K.alternative) cs = K.alternative k cs := by
  by_cases h : ∃ k : Keyword, k.text.toList <+: cs ∧ ¬ (K.alternative k).Passes cs
  · obtain ⟨k, hk, hp⟩ := h
    exact .inr ⟨k, hK.alt_eq_alternative hk hp⟩
  · refine .inl (hK.alt_passes fun q hq => ?_)
    obtain ⟨k, -, rfl⟩ := List.mem_map.mp hq
    by_cases hk : k.text.toList <+: cs
    · exact not_not.mp fun hp => h ⟨k, hk, hp⟩
    · exact hK.alternative_passes (hK.phrase_passes hk)

/-! ### Commands and lines -/

theorem command_ok {c : Command} :
    K.command cs = .ok (rest, c) ↔ rest = [] ∧ Spells cs c := by
  rw [command, hK.cut_eq, mapError_eq_ok_iff, hK.allConsuming_ok, spells_iff]
  refine and_congr_right fun _ => ?_
  constructor
  · intro h
    rcases hK.alt_cases cs with ⟨e, he⟩ | ⟨k, hk⟩
    · rw [he] at h
      cases h
    · exact ⟨k, hK.phrase_ok.mp (hK.alternative_ok.mp (hk.symm.trans h))⟩
  · rintro ⟨k, body, hl, hb⟩
    have hr : K.alternative k cs = .ok ([], c) :=
      hK.alternative_ok.mpr (hK.phrase_ok.mpr ⟨body, hl, hb⟩)
    obtain ⟨gap, hcs, -⟩ := hl
    refine (hK.alt_eq_alternative ⟨gap ++ body, hcs.symm⟩ ?_).trans hr
    rintro ⟨e, he⟩
    rw [hr] at he
    cases he

theorem command_error {x : Rejection ε} (h : K.command cs = .error x) : ∃ e, x = .failure e := by
  rw [command, hK.cut_eq] at h
  obtain ⟨y, hy, rfl⟩ := mapError_eq_error_iff.mp h
  rcases hK.allConsuming_error hy with hy | ⟨e, rfl⟩
  · rcases hK.alt_cases cs with ⟨e, he⟩ | ⟨k, hk⟩
    · obtain rfl : .error e = y := by simpa using he.symm.trans hy
      exact ⟨e, rfl⟩
    · cases y with
      | error e => exact ⟨e, rfl⟩
      | failure e => exact ⟨e, rfl⟩
      | incomplete => exact absurd (hk.symm.trans hy) (hK.alternative_ne_incomplete k cs)
  · exact ⟨e, rfl⟩

theorem readLine_ok {line : String} {o : Option Command} :
    K.readLine line = .ok o ↔ ofLine line = .ok o := by
  rw [readLine, ofLine]
  cases trim line.toList with
  | nil => simp
  | cons c cs =>
    by_cases hc : c = '#'
    · simp [hc]
    simp only [if_neg hc, map_eq_ok_iff]
    constructor
    · rintro ⟨⟨_, command⟩, h, rfl⟩
      exact ⟨command, readTrimmed_eq_ok_iff.mpr (hK.command_ok.mp h).2, rfl⟩
    · rintro ⟨command, h, rfl⟩
      exact ⟨([], command), hK.command_ok.mpr ⟨rfl, readTrimmed_eq_ok_iff.mp h⟩, rfl⟩

theorem readLine_error {line : String} {x : Rejection ε} (h : K.readLine line = .error x) :
    ∃ e, x = .failure e := by
  rw [readLine] at h
  split at h
  · cases h
  · split at h
    · cases h
    · exact hK.command_error (map_eq_error_iff.mp h)

end Combinators.Lawful

end Equational
