import Equational.Proofs.Script.Finishing
import Equational.Script.CommandLine

namespace Equational

theorem Event.isOk_lines {e : Event} (h : e.Readable) (l : Layout) : (e.lines l).isOk = true := by
  cases e with
  | proofStarted θ p =>
    obtain ⟨⟨t, ht⟩, u, hu⟩ := h
    rw [lines, ht, hu]
    split <;> rfl
  | stepAdded θ s =>
    obtain ⟨t, ht⟩ := h
    rw [lines, ht]
    split <;> rfl
  | proofEnded θ π =>
    rw [lines]
    split <;> rfl
  | noTheory e => cases h

theorem listing_eq_none_iff {l : Layout} {es : List Event} :
    (listing l es).2 = none ↔ ∀ e ∈ es, (e.lines l).isOk = true := by
  induction es with
  | nil => simp [listing]
  | cons e es ih =>
    rw [List.forall_mem_cons, ← ih, listing]
    cases e.lines l <;> simp [Except.isOk, Except.toBool]

theorem Run.code_show (r : Run) (l : Layout) (script : String) :
    ((r.show l script).code = 0 ∨ (r.show l script).code = 1) ∧
    ((r.show l script).code = 0 ↔ r.Succeeds ∧ ∀ e ∈ r.events, (e.lines l).isOk = true) := by
  have hcount : r.events.countP Event.isFailedProof = 0 ↔
      ∀ e ∈ r.events, e.isFailedProof = false := by
    simp [List.countP_eq_zero]
  rw [← listing_eq_none_iff, Succeeds, ← hcount, Run.show]
  rcases listing l r.events with ⟨ls, err⟩
  cases err with
  | some e => simp [Exit.failed]
  | none =>
    cases r.failure with
    | some f => simp [Exit.failedWithin, Exit.failed]
    | none =>
      dsimp only
      split
      · next h => simp [Exit.ok, h]
      · next h => exact ⟨.inr rfl, iff_of_false (by simp [Exit.failed]) fun hs => h hs.1.2⟩

/-- The exit status of a run that begins in a sound session. What is shown of it plays no part. -/
theorem Session.code_show_run {L : Library} {s : Session} (hs : s.Sound L) (number : Nat)
    (lines : List String) (l : Layout) (script : String) :
    ((s.run number lines).show l script).code = 0 ↔ s.Finishes L lines := by
  rw [((s.run number lines).code_show l script).2, succeeds_run_iff hs]
  constructor
  · exact fun h => h.1
  · exact fun h => ⟨h, fun e he => Event.isOk_lines (readable_of_finishes hs h number e he) l⟩

/-- If the script can be read from its file, the program ends with status 0 just if all its lines
can be read, all its commands succeed in a session with the shipped theories and all its proofs are
complete, and else with status 1. The status is that of every other run on the same text, whatever
is asked for in its options. -/
theorem Options.code_checkAt {o : Options} {p : Place} {text : String}
    (h : p.readFile o.script = .ok text) :
    ∃ L, Library.ofPresentations Library.shipped = .ok L ∧
      ((o.checkAt p).code = 0 ↔ (Session.fresh L).Finishes L (scriptLines text)) ∧
      ((o.checkAt p).code = 1 ↔ ¬ (Session.fresh L).Finishes L (scriptLines text)) ∧
      ∀ (o' : Options) (p' : Place), p'.readFile o'.script = .ok text →
        (o'.checkAt p').code = (o.checkAt p).code := by
  obtain ⟨L, hL⟩ := Library.exists_ofPresentations_shipped
  have hcheck : ∀ (o : Options) (p : Place), p.readFile o.script = .ok text →
      ((o.checkAt p).code = 0 ∨ (o.checkAt p).code = 1) ∧
      ((o.checkAt p).code = 0 ↔ (Session.fresh L).Finishes L (scriptLines text)) := by
    intro o p h
    simp only [checkAt, h, check, hL]
    exact ⟨(Run.code_show _ _ _).1, Session.code_show_run (Session.sound_fresh L) _ _ _ _⟩
  obtain ⟨hcodes, hzero⟩ := hcheck o p h
  refine ⟨L, hL, hzero, ?_, fun o' p' h' => ?_⟩
  · rw [← hzero]
    rcases hcodes with hcode | hcode <;> simp [hcode]
  · obtain ⟨hcodes', hzero'⟩ := hcheck o' p' h'
    rw [← hzero] at hzero'
    rcases hcodes with hcode | hcode
    · rw [hcode, hzero', hcode]
    · rcases hcodes' with hcode' | hcode'
      · rw [hzero'.mp hcode', hcode']
      · rw [hcode, hcode']

/-- A script with a side that cannot be read, at which the listing stops in the second line while
JSON goes on to the end, and one whose only proof is complete. -/
theorem Options.code_checkAt_of_union :
    let broken := "theory set_theory\nprove A ∪ = A\n"
    let proved := "theory set_theory\nprove A ∪ A = A\nstep idem1: A\n"
    let place (text : String) : Place := ⟨.folder [("script.proof", .file text)], []⟩
    let o : Options := ⟨"script.proof", ⟨.text, false⟩⟩
    let o' : Options := ⟨"script.proof", ⟨.latex, true⟩⟩
    (place broken).readFile "script.proof" = .ok broken ∧
      (o.checkAt (place broken)).code = 1 ∧ (o'.checkAt (place broken)).code = 1 ∧
      (place proved).readFile "script.proof" = .ok proved ∧
      (o.checkAt (place proved)).code = 0 ∧ (o'.checkAt (place proved)).code = 0 ∧
      ∃ L, Library.ofPresentations Library.shipped = .ok L ∧
        (Session.fresh L).Finishes L (scriptLines proved) ∧
        ¬ (Session.fresh L).Finishes L (scriptLines broken) := by
  intro broken proved place o o'
  have hbroken : (place broken).readFile "script.proof" = .ok broken := rfl
  have hproved : (place proved).readFile "script.proof" = .ok proved := rfl
  have hone : (o.checkAt (place broken)).code = 1 := by decide +kernel
  have hzero : (o.checkAt (place proved)).code = 0 := by decide +kernel
  obtain ⟨L, hL, -, hfails, hsame⟩ := code_checkAt (o := o) hbroken
  obtain ⟨L', hL', hfinishes, -, hsame'⟩ := code_checkAt (o := o) hproved
  obtain rfl : L' = L := Except.ok.inj (hL'.symm.trans hL)
  exact ⟨hbroken, hone, (hsame o' _ hbroken).trans hone, hproved, hzero,
    (hsame' o' _ hproved).trans hzero, L', hL, hfinishes.mp hzero, hfails.mp hone⟩

end Equational
