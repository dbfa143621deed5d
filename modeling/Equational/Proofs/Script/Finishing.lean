import Equational.Proofs.Script.Soundness
import Equational.Script.Listing

namespace Equational

/-- The commands that lines hold. Lines that cannot be read are passed over. -/
def Command.ofLines (lines : List String) : List Command :=
  lines.filterMap fun line => (ofLine line).toOption.join

/-- The proof reaches its right side in the theory of its problem. -/
def Proof.CompleteIn (π : Proof) (L : Library) : Prop :=
  ∃ θ, L.get? π.problem.theory = some θ ∧ π.isComplete θ = true

/-- All lines can be read, all their commands succeed one after the other, and every proof that is
handed back on the way or left at the end is complete in the library. -/
structure Session.Finishes (s : Session) (L : Library) (lines : List String) : Prop where
  read : ∀ line ∈ lines, (Command.ofLine line).isOk = true
  accepted : ∀ r ∈ (s.executeAll (Command.ofLines lines)).1, r.isOk = true
  ended : ∀ π ∈ endedProofs (s.executeAll (Command.ofLines lines)).1, π.CompleteIn L
  left : ∀ π, (s.executeAll (Command.ofLines lines)).2.proof = some π → π.CompleteIn L

/-- No line has failed, and no proof has ended short of its right side. -/
def Run.Succeeds (r : Run) : Prop :=
  r.failure = none ∧ ∀ e ∈ r.events, e.isFailedProof = false

/-- An event has a theory, and the formulas that it is told with can be read. -/
def Event.Readable : Event → Prop
  | proofStarted θ p => (∃ t, θ.read p.lhs = .ok t) ∧ ∃ u, θ.read p.rhs = .ok u
  | stepAdded θ s => ∃ t, θ.read s.expression = .ok t
  | proofEnded _ _ => True
  | noTheory _ => False

variable {L : Library} {π : Proof} {s s' : Session} {c : Command} {o : Outcome} {line : String}
  {lines : List String}

/-- A genuine proof is complete in every theory that is presented as its own. -/
theorem Proof.completeIn_iff {θ : Theory}
    (h : (L.get? π.problem.theory).map Theory.presented = some θ.presented) :
    π.CompleteIn L ↔ π.isComplete θ = true := by
  obtain ⟨θ₀, hθ₀, hp⟩ := Option.map_eq_some_iff.mp h
  have hsame : π.isComplete θ₀ = true ↔ π.isComplete θ = true := by
    rw [isComplete_iff, isComplete_iff, Theory.read_eq_of_presented hp]
  constructor
  · rintro ⟨θ₁, hθ₁, hc⟩
    obtain rfl : θ₀ = θ₁ := Option.some.inj (hθ₀.symm.trans hθ₁)
    exact hsame.mp hc
  · exact fun hc => ⟨θ₀, hθ₀, hsame.mpr hc⟩

/-- Both sides of a proof that is complete can be read: the left side where its first step was
checked, the right side where it is compared with what the last step has arrived at. -/
theorem Proof.Genuine.exists_read (hπ : π.Genuine L) (hc : π.CompleteIn L) {θ : Theory}
    (hθ : (L.get? π.problem.theory).map Theory.presented = some θ.presented) :
    (∃ t, θ.read π.problem.lhs = .ok t) ∧ ∃ u, θ.read π.problem.rhs = .ok u := by
  obtain ⟨θ', hθ', hw⟩ := hπ
  obtain ⟨t, u, ht, hu, -⟩ := eval_of_isComplete.{0} hw.justified ((completeIn_iff hθ').mp hc)
  have hpres : θ'.presented = θ.presented := Option.some.inj (hθ'.symm.trans hθ)
  rw [Theory.read_eq_of_presented hpres] at ht hu
  exact ⟨⟨t, ht⟩, u, hu⟩

namespace Session

/-- A running proof is handed back sooner or later, with whatever steps it has by then. -/
theorem exists_handed_back (hπ : s.proof = some π) (cs : List Command) :
    ∃ ρ, ρ.problem = π.problem ∧
      (ρ ∈ endedProofs (s.executeAll cs).1 ∨ (s.executeAll cs).2.proof = some ρ) := by
  induction cs generalizing s π with
  | nil => exact ⟨π, rfl, .inr hπ⟩
  | cons c cs ih =>
    rcases hx : s.execute c with ⟨r, s'⟩
    simp only [executeAll, hx, endedProofs, List.filterMap_cons] at ih ⊢
    cases r with
    | error e =>
      obtain rfl := eq_of_execute_error hx
      exact ih hπ
    | ok o =>
      cases executes_of_execute hx with
      | theory hθ => exact ⟨π, rfl, .inl (by simp [Except.toOption, Outcome.ended?, hπ])⟩
      | law hs => exact ih hπ
      | prove hs hθ => exact ⟨π, rfl, .inl (by simp [Except.toOption, Outcome.ended?, hπ])⟩
      | @step rule expression name θ ρ st hs hθ hρ hj =>
        obtain rfl : ρ = π := Option.some.inj (hρ.symm.trans hπ)
        exact ih (π := { ρ with steps := ρ.steps ++ [st] }) rfl

theorem finishes_nil : s.Finishes L [] ↔ ∀ π, s.proof = some π → π.CompleteIn L := by
  constructor
  · exact fun h => h.left
  · intro h
    refine ⟨?_, ?_, ?_, h⟩ <;> simp [Command.ofLines, executeAll, endedProofs]

theorem finishes_cons_of_none (hl : Command.ofLine line = .ok none) :
    s.Finishes L (line :: lines) ↔ s.Finishes L lines := by
  have hcs : Command.ofLines (line :: lines) = Command.ofLines lines := by
    simp [Command.ofLines, hl, Except.toOption]
  constructor
  · rintro ⟨hr, ha, he, hf⟩
    rw [hcs] at ha he hf
    exact ⟨fun l hm => hr l (List.mem_cons_of_mem _ hm), ha, he, hf⟩
  · rintro ⟨hr, ha, he, hf⟩
    rw [← hcs] at ha he hf
    refine ⟨List.forall_mem_cons.mpr ⟨?_, hr⟩, ha, he, hf⟩
    rw [hl]
    rfl

theorem finishes_cons_of_executes (hl : Command.ofLine line = .ok (some c))
    (hx : s.execute c = (.ok o, s')) :
    s.Finishes L (line :: lines) ↔
      (∀ π, o.ended? = some π → π.CompleteIn L) ∧ s'.Finishes L lines := by
  have hcs : Command.ofLines (line :: lines) = c :: Command.ofLines lines := by
    simp [Command.ofLines, hl, Except.toOption]
  have hrun : s.executeAll (Command.ofLines (line :: lines)) =
      (.ok o :: (s'.executeAll (Command.ofLines lines)).1,
        (s'.executeAll (Command.ofLines lines)).2) := by
    rw [hcs, executeAll, hx]
  have hended : ∀ π, π ∈ endedProofs (.ok o :: (s'.executeAll (Command.ofLines lines)).1) ↔
      o.ended? = some π ∨ π ∈ endedProofs (s'.executeAll (Command.ofLines lines)).1 := by
    intro π
    simp only [endedProofs, List.mem_filterMap, List.mem_cons, exists_eq_or_imp]
    rfl
  constructor
  · rintro ⟨hr, ha, he, hf⟩
    rw [hrun] at ha he hf
    exact ⟨fun π hπ => he π ((hended π).mpr (.inl hπ)), fun l hm => hr l (List.mem_cons_of_mem _ hm),
      fun r hm => ha r (List.mem_cons_of_mem _ hm), fun π hπ => he π ((hended π).mpr (.inr hπ)), hf⟩
  · rintro ⟨ho, hr, ha, he, hf⟩
    refine ⟨List.forall_mem_cons.mpr ⟨?_, hr⟩, ?_, ?_, ?_⟩
    · rw [hl]
      rfl
    · rw [hrun]
      exact List.forall_mem_cons.mpr ⟨rfl, ha⟩
    · rw [hrun]
      intro π hπ
      exact ((hended π).mp hπ).elim (ho π) (he π)
    · rw [hrun]
      exact hf

/-- A line fails, holds no command, or holds one that succeeds. -/
theorem executeLine_cases (s : Session) (line : String) :
    (∃ e, (s.executeLine line).1 = .error e) ∨ Command.ofLine line = .ok none ∨
      ∃ c o s', Command.ofLine line = .ok (some c) ∧ s.execute c = (.ok o, s') := by
  rw [executeLine]
  cases hl : Command.ofLine line with
  | error e => exact .inl ⟨_, rfl⟩
  | ok c? =>
    cases c? with
    | none => exact .inr (.inl rfl)
    | some c =>
      rcases hx : s.execute c with ⟨r, s'⟩
      cases r with
      | error e =>
        refine .inl ⟨e, ?_⟩
        simp only [hx]
      | ok o => exact .inr (.inr ⟨c, o, s', rfl, hx⟩)

theorem not_finishes_cons {e : ScriptError} (he : (s.executeLine line).1 = .error e) :
    ¬ s.Finishes L (line :: lines) := by
  intro h
  rw [executeLine] at he
  cases hl : Command.ofLine line with
  | error e' =>
    have hline := h.read line List.mem_cons_self
    rw [hl] at hline
    cases hline
  | ok c? =>
    cases c? with
    | none =>
      rw [hl] at he
      cases he
    | some c =>
      rcases hx : s.execute c with ⟨r, s'⟩
      cases r with
      | error e' =>
        have hfirst := h.accepted (.error e') (by
          simp [Command.ofLines, hl, Except.toOption, executeAll, hx])
        cases hfirst
      | ok o =>
        simp only [hl, hx] at he
        cases he

theorem run_cons_of_none (hl : Command.ofLine line = .ok none) (number : Nat) :
    s.run number (line :: lines) = s.run (number + 1) lines := by
  rw [run, executeLine, hl]

theorem run_cons_of_executes (hl : Command.ofLine line = .ok (some c))
    (hx : s.execute c = (.ok o, s')) (number : Nat) :
    s.run number (line :: lines) =
      ⟨s'.events o ++ (s'.run (number + 1) lines).events,
        (s'.run (number + 1) lines).failure⟩ := by
  simp only [run, executeLine, hl, hx]

/-- A line that cannot be read, or whose command fails, ends the run. -/
theorem failure_run_cons {e : ScriptError} (hx : (s.executeLine line).1 = .error e)
    (number : Nat) : (s.run number (line :: lines)).failure = some ⟨number, e⟩ := by
  rcases hy : s.executeLine line with ⟨r, s'⟩
  rw [hy] at hx
  obtain rfl : r = .error e := hx
  simp only [run, hy]

theorem told_of_get? {name : String} {θ : Theory} (h : s.library.get? name = some θ)
    (event : Theory → Event) : s.told name event = event θ := by
  rw [told, Library.get, h]

theorem events_stepAdded {name : String} {θ : Theory} (hs : s.selected = some name)
    (hθ : s.library.get? name = some θ) (st : ProofStep) :
    s.events (.stepAdded st) = [.stepAdded θ st] := by
  rw [events, hs]
  exact congrArg (fun e => [e]) (told_of_get? hθ _)

theorem isFailedProof_told {event : Theory → Event} (h : ∀ θ, (event θ).isFailedProof = false)
    (s : Session) (name : String) : (s.told name event).isFailedProof = false := by
  rw [told]
  split
  · exact h _
  · rfl

/-- A sound session has the theory of every genuine proof, as it was presented. -/
theorem Sound.exists_theory (hs : s.Sound L) (hπ : π.Genuine L) :
    ∃ θ, s.library.get? π.problem.theory = some θ ∧
      (L.get? π.problem.theory).map Theory.presented = some θ.presented := by
  obtain ⟨θ', hθ', -⟩ := hπ
  have hpres := hs.presented π.problem.theory
  rw [hθ'] at hpres
  obtain ⟨θ, hθ, hp⟩ := Option.map_eq_some_iff.mp hpres
  exact ⟨θ, hθ, by rw [hθ', hp]⟩

/-- Of a proof that has been written in a session, told as ended in this or a later one. -/
theorem forall_ended_iff (hs : s.Sound L) {π? : Option Proof}
    (hπ : ∀ π, π? = some π → π.Genuine L) :
    (∀ e ∈ s.ended π?, e.isFailedProof = false) ↔ ∀ π, π? = some π → π.CompleteIn L := by
  cases π? with
  | none => simp [Session.ended]
  | some π =>
    obtain ⟨θ, hθ, hpres⟩ := hs.exists_theory (hπ π rfl)
    simp [Session.ended, told_of_get? hθ, Event.isFailedProof, Proof.completeIn_iff hpres]

theorem forall_events_iff (hs : s.Sound L) (hs' : s'.Sound L) (hc : s.Executes c o s') :
    (∀ e ∈ s'.events o, e.isFailedProof = false) ↔
      ∀ π, o.ended? = some π → π.CompleteIn L := by
  have hended := forall_ended_iff hs' fun π hπ => hs.genuine hπ
  cases hc with
  | theory hθ => exact hended
  | law hl => simp [events, Outcome.ended?]
  | @prove lhs rhs name θ hsel hθ =>
    rw [Outcome.ended?, ← hended, events]
    simp only [List.mem_append]
    refine ⟨fun h e he => h e (.inl he), fun h e he => he.elim (h e) fun hstart => ?_⟩
    rw [List.mem_singleton.mp hstart]
    exact isFailedProof_told (fun _ => rfl) _ _
  | @step rule expression name θ π st hsel hθ hρ hj =>
    rw [events_stepAdded (s := { s with proof := some { π with steps := π.steps ++ [st] } }) hsel hθ]
    simp [Event.isFailedProof, Outcome.ended?]

/-- A run succeeds just if its lines finish. -/
theorem succeeds_run_iff (hs : s.Sound L) (number : Nat) :
    (s.run number lines).Succeeds ↔ s.Finishes L lines := by
  induction lines generalizing s number with
  | nil =>
    rw [finishes_nil, run, Run.Succeeds]
    simpa using forall_ended_iff hs fun π hπ => hs.genuine hπ
  | cons line lines ih =>
    rcases s.executeLine_cases line with ⟨e, he⟩ | hl | ⟨c, o, s', hl, hx⟩
    · refine iff_of_false (fun h => ?_) (not_finishes_cons he)
      have hnone := h.1
      rw [failure_run_cons he] at hnone
      cases hnone
    · rw [finishes_cons_of_none hl, ← ih hs (number + 1), run_cons_of_none hl]
    · have hc := executes_of_execute hx
      have hs' := sound_of_executes hs hc
      rw [finishes_cons_of_executes hl hx, ← forall_events_iff hs hs' hc,
        ← ih hs' (number + 1), run_cons_of_executes hl hx, Run.Succeeds, Run.Succeeds]
      simp only [List.mem_append, or_imp, forall_and]
      exact and_left_comm

/-- If the lines finish, both sides of the running proof can be read. -/
theorem Finishes.exists_read (h : s.Finishes L lines) (hs : s.Sound L) (hπ : s.proof = some π)
    {θ : Theory} (hθ : s.library.get? π.problem.theory = some θ) :
    (∃ t, θ.read π.problem.lhs = .ok t) ∧ ∃ u, θ.read π.problem.rhs = .ok u := by
  obtain ⟨ρ, hρ, hback⟩ := exists_handed_back hπ (Command.ofLines lines)
  obtain ⟨hsound, hgenuine⟩ := sound_executeAll hs (Command.ofLines lines)
  have hpres : (L.get? ρ.problem.theory).map Theory.presented = some θ.presented := by
    rw [hρ, ← hs.presented, hθ, Option.map_some]
  rw [← hρ]
  rcases hback with hended | hleft
  · exact (hgenuine ρ hended).exists_read (h.ended ρ hended) hpres
  · exact (hsound.genuine hleft).exists_read (h.left ρ hleft) hpres

theorem readable_of_mem_ended (hs : s.Sound L) {π? : Option Proof}
    (hπ : ∀ π, π? = some π → π.Genuine L) {e : Event} (he : e ∈ s.ended π?) : e.Readable := by
  cases π? with
  | none => cases he
  | some π =>
    obtain ⟨θ, hθ, -⟩ := hs.exists_theory (hπ π rfl)
    rw [ended, told_of_get? hθ] at he
    rw [List.mem_singleton.mp he]
    trivial

/-- The formulas that a command is told with can be read, if those of a proof that it begins can. -/
theorem readable_of_executes (hs : s.Sound L) (hs' : s'.Sound L) (hc : s.Executes c o s')
    (hπ : ∀ π θ, s'.proof = some π → s'.library.get? π.problem.theory = some θ →
      (∃ t, θ.read π.problem.lhs = .ok t) ∧ ∃ u, θ.read π.problem.rhs = .ok u) :
    ∀ e ∈ s'.events o, e.Readable := by
  intro e he
  cases hc with
  | theory hθ => exact readable_of_mem_ended hs' (fun π hπ => hs.genuine hπ) he
  | law hl => cases he
  | @prove lhs rhs name θ hsel hθ =>
    rw [events, List.mem_append] at he
    rcases he with he | he
    · exact readable_of_mem_ended hs' (fun π hπ => hs.genuine hπ) he
    · obtain ⟨θ', hθ', -⟩ := hs'.exists_theory (hs'.genuine rfl)
      rw [List.mem_singleton.mp he, told_of_get? hθ']
      exact hπ _ θ' rfl hθ'
  | @step rule expression name θ π st hsel hθ hρ hj =>
    rw [events_stepAdded (s := { s with proof := some { π with steps := π.steps ++ [st] } }) hsel hθ]
      at he
    rw [List.mem_singleton.mp he]
    obtain ⟨-, -, t, u, d, -, hu, -, -, -, rfl⟩ := Proof.justify_eq_ok_iff.mp hj
    exact ⟨u, hu⟩

/-- If the lines finish, the formulas that the run is told with can be read. -/
theorem readable_of_finishes (hs : s.Sound L) (h : s.Finishes L lines) (number : Nat) :
    ∀ e ∈ (s.run number lines).events, e.Readable := by
  induction lines generalizing s number with
  | nil => exact fun e he => readable_of_mem_ended hs (fun π hπ => hs.genuine hπ) he
  | cons line lines ih =>
    rcases s.executeLine_cases line with ⟨e, he⟩ | hl | ⟨c, o, s', hl, hx⟩
    · exact absurd h (not_finishes_cons he)
    · rw [run_cons_of_none hl]
      exact ih hs ((finishes_cons_of_none hl).mp h) (number + 1)
    · have hc := executes_of_execute hx
      have hs' := sound_of_executes hs hc
      have h' := ((finishes_cons_of_executes hl hx).mp h).2
      rw [run_cons_of_executes hl hx]
      intro e he
      rcases List.mem_append.mp he with he | he
      · exact readable_of_executes hs hs' hc (fun π θ hπ hθ => h'.exists_read hs' hπ hθ) e he
      · exact ih hs' h' (number + 1) e he

end Session

end Equational
