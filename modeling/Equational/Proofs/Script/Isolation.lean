import Equational.Proofs.Script.Failures
import Equational.Proofs.Script.HandedBack
import Equational.Proofs.Theory.Forgetting

/-! What a script has done before it selects a theory plays no part behind that line. Theories that
are left behind keep the problem they had, and all theories keep the laws that were stored, but a
theory is cleared when it is selected again, and a problem is begun with its own laws. The invariant
relates two sessions that go on with the same commands. -/

namespace Equational

/-- The theory has been built from a presentation, and may have been switched between problems. -/
def Theory.Arises (θ : Theory) : Prop :=
  ∃ p θ₀ ss, ofPresentation p = .ok θ₀ ∧ θ₀.switchAll ss = θ

theorem Theory.Arises.upToDate {θ : Theory} (h : θ.Arises) : θ.UpToDate := by
  obtain ⟨p, θ₀, ss, hp, rfl⟩ := h
  exact upToDate_switchAll hp ss

namespace Library

theorem arises_of_get? {ps : List Presentation} {L : Library} (h : ofPresentations ps = .ok L)
    (name : String) (θ : Theory) (hθ : L.get? name = some θ) : θ.Arises := by
  obtain ⟨p, -, hp⟩ := exists_presentation_of_get? h hθ
  exact ⟨p, θ, [], hp, rfl⟩

/-- The libraries hold theories of the same names and presentations, which are all up to date. -/
structure Akin (L L' : Library) : Prop where
  presented : ∀ name, (L.get? name).map Theory.presented = (L'.get? name).map Theory.presented
  upToDate : ∀ name θ, L.get? name = some θ → θ.UpToDate
  upToDate' : ∀ name θ, L'.get? name = some θ → θ.UpToDate

namespace Akin

variable {L L' L'' : Library} {name : String} {θ θ' θ₁ θ₁' : Theory}

theorem symm (h : L.Akin L') : L'.Akin L :=
  ⟨fun name => (h.presented name).symm, h.upToDate', h.upToDate⟩

theorem trans (h : L.Akin L') (h' : L'.Akin L'') : L.Akin L'' :=
  ⟨fun name => (h.presented name).trans (h'.presented name), h.upToDate, h'.upToDate'⟩

/-- Putting a theory back as it was presented keeps a library akin to another one. -/
theorem put_left (h : L.Akin L') (hθ : L.get? name = some θ) (hp : θ₁.presented = θ.presented)
    (hu : θ₁.UpToDate) : (L.put name θ₁).Akin L' where
  presented := presented_put h.presented hθ hp
  upToDate other θ₂ hθ₂ := by
    by_cases ho : other = name
    · rw [ho, get?_put_self] at hθ₂
      rwa [← Option.some.inj hθ₂]
    · rw [get?_put_of_ne _ _ ho] at hθ₂
      exact h.upToDate other θ₂ hθ₂
  upToDate' := h.upToDate'

theorem put (h : L.Akin L') (hθ : L.get? name = some θ) (hθ' : L'.get? name = some θ')
    (hp : θ₁.presented = θ.presented) (hp' : θ₁'.presented = θ'.presented) (hu : θ₁.UpToDate)
    (hu' : θ₁'.UpToDate) : (L.put name θ₁).Akin (L'.put name θ₁') :=
  ((h.put_left hθ hp hu).symm.put_left hθ' hp' hu').symm

/-- A name is looked up in both libraries with the same success. -/
theorem get?_cases (h : L.Akin L') (name : String) :
    (L.get? name = none ∧ L'.get? name = none) ∨
      ∃ θ θ', L.get? name = some θ ∧ L'.get? name = some θ' ∧ θ.presented = θ'.presented := by
  have hp := h.presented name
  cases hθ : L.get? name with
  | none =>
    rw [hθ, Option.map_none] at hp
    exact .inl ⟨rfl, Option.map_eq_none_iff.mp hp.symm⟩
  | some θ =>
    rw [hθ, Option.map_some] at hp
    obtain ⟨θ', hθ', hpres⟩ := Option.map_eq_some_iff.mp hp.symm
    exact .inr ⟨θ, θ', rfl, hθ', hpres.symm⟩

end Akin

end Library

namespace Session

/-- The sessions have the same theory selected, which is alike in their libraries, and agree in all
else but what the other theories are doing. -/
structure Alike (s s' : Session) : Prop where
  libraries : s.library.Akin s'.library
  laws : s.laws = s'.laws
  proof : s.proof = s'.proof
  started : s.started = s'.started
  selected : ∃ name θ θ', s.selected = some name ∧ s'.selected = some name ∧
    s.library.get? name = some θ ∧ s'.library.get? name = some θ' ∧ θ.Alike θ'

variable {s s' : Session}

/-- A library stays akin to the one that the session began with. -/
theorem akin_executeAll {L : Library} (h : s.library.Akin L) (cs : List Command) :
    (s.executeAll cs).2.library.Akin L := by
  refine (executeAll_induction (P := fun s => s.library.Akin L) (Q := fun _ => True) ?_
    (fun _ _ _ _ => trivial) cs h).1
  intro s c o s' h hc
  cases hc with
  | theory hθ => exact h.put_left hθ (Theory.presented_clear _) (h.upToDate _ _ hθ).clear
  | law hs => exact h
  | prove hs hθ => exact h.put_left hθ (Theory.presented_start _ _) ((h.upToDate _ _ hθ).start _)
  | step hs hθ hπ hj => exact h

/-- Whatever two sessions have been doing, they are alike as soon as they have selected the same
theory, if as many proofs have been begun in both. -/
theorem alike_selectTheory (h : s.library.Akin s'.library) (hstarted : s.started = s'.started)
    {name : String} {θ θ' : Theory} (hθ : s.library.get? name = some θ)
    (hθ' : s'.library.get? name = some θ') (hp : θ.presented = θ'.presented) :
    (s.selectTheory name).2.Alike (s'.selectTheory name).2 := by
  have hu := h.upToDate name θ hθ
  have hu' := h.upToDate' name θ' hθ'
  simp only [selectTheory, Library.get_eq_ok_iff.mpr hθ, Library.get_eq_ok_iff.mpr hθ']
  exact
    { libraries := h.put hθ hθ' θ.presented_clear θ'.presented_clear hu.clear hu'.clear
      laws := rfl
      proof := rfl
      started := hstarted
      selected := ⟨name, θ.clear, θ'.clear, rfl, rfl, Library.get?_put_self _ _ _,
        Library.get?_put_self _ _ _, hu.alike_clear hu' hp⟩ }

namespace Alike

theorem selectTheory (h : s.Alike s') (name : String) :
    (s.selectTheory name).1 = (s'.selectTheory name).1 ∧
      (s.selectTheory name).2.Alike (s'.selectTheory name).2 := by
  rcases h.libraries.get?_cases name with ⟨hn, hn'⟩ | ⟨θ, θ', hθ, hθ', hp⟩
  · rw [Session.selectTheory, Session.selectTheory, Library.get_of_get?_eq_none hn,
      Library.get_of_get?_eq_none hn']
    exact ⟨rfl, h⟩
  · refine ⟨?_, alike_selectTheory h.libraries h.started hθ hθ' hp⟩
    simp only [Session.selectTheory, Library.get_eq_ok_iff.mpr hθ, Library.get_eq_ok_iff.mpr hθ',
      h.proof]

theorem addLaw (h : s.Alike s') (l : Law) :
    (s.addLaw l).1 = (s'.addLaw l).1 ∧ (s.addLaw l).2.Alike (s'.addLaw l).2 := by
  obtain ⟨name, θ, θ', hs, hs', hθ, hθ', ha⟩ := h.selected
  rw [Session.addLaw, Session.addLaw, hs, hs']
  exact ⟨rfl, h.libraries, by rw [h.laws], h.proof, h.started, name, θ, θ', rfl, rfl, hθ, hθ', ha⟩

theorem startProof (h : s.Alike s') (lhs rhs : String) :
    (s.startProof lhs rhs).1 = (s'.startProof lhs rhs).1 ∧
      (s.startProof lhs rhs).2.Alike (s'.startProof lhs rhs).2 := by
  obtain ⟨name, θ, θ', hs, hs', hθ, hθ', ha⟩ := h.selected
  have hu := h.libraries.upToDate name θ hθ
  have hu' := h.libraries.upToDate' name θ' hθ'
  have hproblem : s.problem name lhs rhs = s'.problem name lhs rhs := by
    rw [problem, problem, h.started, h.laws]
  rw [Session.startProof, Session.startProof, hs, hs']
  simp only [Library.get_eq_ok_iff.mpr hθ, Library.get_eq_ok_iff.mpr hθ', hproblem]
  generalize s'.problem name lhs rhs = p
  refine ⟨by rw [h.proof], ?_⟩
  exact
    { libraries := h.libraries.put hθ hθ' (θ.presented_start p) (θ'.presented_start p)
        (hu.start p) (hu'.start p)
      laws := h.laws
      proof := rfl
      started := by rw [h.started]
      selected := ⟨name, θ.start p, θ'.start p, rfl, rfl, Library.get?_put_self _ _ _,
        Library.get?_put_self _ _ _, hu.alike_start hu' ha.presented p⟩ }

theorem addStep (h : s.Alike s') (rule expression : String) :
    (s.addStep rule expression).1 = (s'.addStep rule expression).1 ∧
      (s.addStep rule expression).2.Alike (s'.addStep rule expression).2 := by
  obtain ⟨name, θ, θ', hs, hs', hθ, hθ', ha⟩ := h.selected
  rw [Session.addStep, Session.addStep, hs, hs']
  simp only [Library.get_eq_ok_iff.mpr hθ, Library.get_eq_ok_iff.mpr hθ', h.proof]
  have hend (π? : Option Proof) : Session.Alike ⟨s.library, some name, s.laws, π?, s.started⟩
      ⟨s'.library, some name, s'.laws, π?, s'.started⟩ :=
    ⟨h.libraries, h.laws, rfl, h.started, name, θ, θ', rfl, rfl, hθ, hθ', ha⟩
  cases s'.proof with
  | none => exact ⟨rfl, h⟩
  | some π =>
    have hname : s.ruleName π.problem rule = s'.ruleName π.problem rule := by
      rw [ruleName, ruleName, h.laws]
    simp only [Proof.add, hname, ha.justify_eq]
    cases Proof.justify π.problem θ' π.current expression (s'.ruleName π.problem rule) with
    | error e => exact ⟨rfl, hend _⟩
    | ok st => exact ⟨rfl, hend _⟩

/-- One command has the same result in both sessions, and they stay alike. -/
theorem execute (h : s.Alike s') (c : Command) :
    (s.execute c).1 = (s'.execute c).1 ∧ (s.execute c).2.Alike (s'.execute c).2 := by
  cases c with
  | theory name => exact h.selectTheory name
  | law l => exact h.addLaw l
  | prove lhs rhs => exact h.startProof lhs rhs
  | step rule expression => exact h.addStep rule expression

theorem executeAll (h : s.Alike s') (cs : List Command) :
    (s.executeAll cs).1 = (s'.executeAll cs).1 ∧
      (s.executeAll cs).2.Alike (s'.executeAll cs).2 := by
  induction cs generalizing s s' with
  | nil => exact ⟨rfl, h⟩
  | cons c cs ih =>
    obtain ⟨hr, hnext⟩ := h.execute c
    obtain ⟨hrs, hend⟩ := ih hnext
    exact ⟨by rw [executeAll_cons, executeAll_cons, hr, hrs], hend⟩

end Alike

/-- Two sessions of one library that have begun as many proofs, whatever else they have done, and
select the same theory: the line succeeds in both if in one, and whatever commands follow, however
many of them and theory lines included, they have the same results. Behind them the same theory is
selected, the same proof is being written, and the theory has the same problem active, the same
rules and the same laws. -/
theorem selection_isolates {L : Library} (hL : ∀ name θ, L.get? name = some θ → θ.Arises)
    {before before' : List Command}
    (hcount : beginnings ((fresh L).executeAll before).1 =
      beginnings ((fresh L).executeAll before').1)
    {name : String} {o : Outcome} {s : Session}
    (hs : ((fresh L).executeAll before).2.execute (.theory name) = (.ok o, s)) :
    ∃ o' s', ((fresh L).executeAll before').2.execute (.theory name) = (.ok o', s') ∧
      ∀ cs, (s.executeAll cs).1 = (s'.executeAll cs).1 ∧
        (s.executeAll cs).2.selected = (s'.executeAll cs).2.selected ∧
        (s.executeAll cs).2.proof = (s'.executeAll cs).2.proof ∧
        ∃ name θ θ', (s.executeAll cs).2.selected = some name ∧
          (s.executeAll cs).2.library.get? name = some θ ∧
          (s'.executeAll cs).2.library.get? name = some θ' ∧ θ.active = θ'.active ∧
          θ.ruleNames = θ'.ruleNames ∧ θ.customLaws = θ'.customLaws := by
  have hstarted : ((fresh L).executeAll before).2.started =
      ((fresh L).executeAll before').2.started := by
    rw [started_executeAll, started_executeAll, hcount]
  -- what the two histories leave of the library differs from the library, and so from each other,
  -- in what the theories are doing only
  have hself : L.Akin L :=
    ⟨fun _ => rfl, fun name θ hθ => (hL name θ hθ).upToDate,
      fun name θ hθ => (hL name θ hθ).upToDate⟩
  have hakin : ((fresh L).executeAll before).2.library.Akin
      ((fresh L).executeAll before').2.library :=
    (akin_executeAll (s := fresh L) hself before).trans
      (akin_executeAll (s := fresh L) hself before').symm
  generalize ((fresh L).executeAll before).2 = e at hs hstarted hakin
  generalize ((fresh L).executeAll before').2 = e' at hstarted hakin
  rcases hakin.get?_cases name with ⟨hn, -⟩ | ⟨θ, θ', hθ, hθ', hp⟩
  · -- a theory that there is not cannot have been selected
    rw [execute, selectTheory, Library.get_of_get?_eq_none hn] at hs
    cases hs
  · have hs' : e'.execute (.theory name) = (.ok (.theorySelected e'.proof), _) :=
      execute_eq_ok_iff.mpr (.theory hθ')
    have halike : (e.execute (.theory name)).2.Alike (e'.execute (.theory name)).2 :=
      alike_selectTheory hakin hstarted hθ hθ' hp
    rw [hs, hs'] at halike
    refine ⟨_, _, hs', fun cs => ?_⟩
    obtain ⟨hresults, hend⟩ := halike.executeAll cs
    obtain ⟨name, θ, θ', hsel, hsel', hget, hget', ha⟩ := hend.selected
    have hnames : θ.ruleNames = θ'.ruleNames := by
      rw [Theory.ruleNames, Theory.ruleNames, ha.available_eq]
    exact ⟨hresults, hsel.trans hsel'.symm, hend.proof, name, θ, θ', hsel, hget, hget',
      ha.active, hnames, ha.customLaws⟩

/-- A session in which a proof by a law has been left unfinished, and one that has begun a proof in
another theory. The first has a law stored in the theory of sets that the second has not, and goes
on as the second does, by laws of its own and back to that other theory. -/
theorem selection_isolates_of_absorption :
    let absorption : Law := ⟨"Absorption", none, "(x ∪ y) ∩ x", "x", none⟩
    let before : List Command := [.theory "set_theory", .law absorption,
      .prove "(A ∪ B) ∩ A" "A", .step "Absorption" "A"]
    let before' : List Command := [.theory "bool_alg", .prove "x ∨ x" "x", .step "idem_or" "x"]
    let cs : List Command := [.prove "A ∪ A" "A", .step "Absorption" "A", .step "idem1" "A",
      .law absorption, .prove "(A ∪ B) ∩ A" "A", .step "Absorption" "A", .theory "bool_alg",
      .prove "x ∨ x" "x"]
    ∃ L o s o' s', Library.ofPresentations Library.shipped = .ok L ∧
      beginnings ((fresh L).executeAll before).1 = beginnings ((fresh L).executeAll before').1 ∧
      ((fresh L).executeAll before).2.execute (.theory "set_theory") = (.ok o, s) ∧
      ((fresh L).executeAll before').2.execute (.theory "set_theory") = (.ok o', s') ∧
      (s.library.get? "set_theory").bind (·.stored.get? "0.1") = some [absorption] ∧
      (s'.library.get? "set_theory").bind (·.stored.get? "0.1") = none ∧
      (s.executeAll cs).1 = (s'.executeAll cs).1 ∧
      (s.executeAll cs).1.map (·.isOk) = [true, false, true, true, true, true, true, true] ∧
      (s.executeAll cs).2.selected = (s'.executeAll cs).2.selected ∧
      (s.executeAll cs).2.proof = (s'.executeAll cs).2.proof := by
  intro absorption before before' cs
  obtain ⟨L, hL, hrun⟩ := Library.exists_shipped_of_any (f := fun L =>
      let e := (fresh L).executeAll before
      let e' := (fresh L).executeAll before'
      let s := (e.2.execute (.theory "set_theory")).2
      let s' := (e'.2.execute (.theory "set_theory")).2
      beginnings e.1 == beginnings e'.1 && (e.2.execute (.theory "set_theory")).1.isOk &&
        (s.library.get? "set_theory").bind (·.stored.get? "0.1") == some [absorption] &&
        (s'.library.get? "set_theory").bind (·.stored.get? "0.1") == none &&
        (s.executeAll cs).1.map (·.isOk) ==
          [true, false, true, true, true, true, true, true]) (by decide +kernel)
  simp only [Bool.and_eq_true, beq_iff_eq] at hrun
  obtain ⟨⟨⟨⟨hcount, hok⟩, hstored⟩, hstored'⟩, hall⟩ := hrun
  rcases hs : ((fresh L).executeAll before).2.execute (.theory "set_theory") with ⟨r, s⟩
  rw [hs] at hok hstored hall
  cases r with
  | error e => cases hok
  | ok o =>
    obtain ⟨o', s', hs', hcs⟩ := selection_isolates (Library.arises_of_get? hL) hcount hs
    obtain ⟨hresults, hselected, hproof, -⟩ := hcs cs
    rw [hs'] at hstored'
    exact ⟨L, o, s, o', s', hL, hcount, hs, hs', hstored, hstored', hresults, hall, hselected,
      hproof⟩

end Session

end Equational
