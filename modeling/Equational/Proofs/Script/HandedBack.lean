import Equational.Proofs.Problem.Ids
import Equational.Proofs.Script.Steps
import Mathlib.Algebra.Group.Nat.Defs

namespace Equational

/-- The step that a command has added. -/
def Outcome.step? : Outcome → Option ProofStep
  | .stepAdded st => some st
  | _ => none

/-- The command has ended the proof that was being written, if there was one. -/
def Outcome.isTurn : Outcome → Bool
  | .theorySelected _ => true
  | .proofStarted _ => true
  | _ => false

def Outcome.isBeginning : Outcome → Bool
  | .proofStarted _ => true
  | _ => false

/-- What a run tells of a proof. -/
structure ProofAccount where
  lhs : String
  rhs : String
  steps : List ProofStep
deriving DecidableEq

def Proof.account (π : Proof) : ProofAccount := ⟨π.problem.lhs, π.problem.rhs, π.steps⟩

namespace Session

/-- How many of the commands have begun a proof. -/
def beginnings (os : List (Except ScriptError Outcome)) : Nat :=
  os.countP fun o => o.toOption.any Outcome.isBeginning

/-- The steps that are added before a theory is selected or a proof is begun. -/
def stepsAhead (os : List (Except ScriptError Outcome)) : List ProofStep :=
  (os.takeWhile fun o => !o.toOption.any Outcome.isTurn).filterMap fun o =>
    o.toOption.bind Outcome.step?

/-- What commands and their results tell of the proofs that are begun: of each the equation that it
was begun with, and the steps that are added until it is ended. -/
def accounts : List Command → List (Except ScriptError Outcome) → List ProofAccount
  | .prove lhs rhs :: cs, .ok _ :: os => ⟨lhs, rhs, stepsAhead os⟩ :: accounts cs os
  | _ :: cs, _ :: os => accounts cs os
  | _, _ => []

/-- The proofs that commands hand back, and the one that is left behind them. -/
def handedBack (s : Session) (cs : List Command) : List Proof :=
  endedProofs (s.executeAll cs).1 ++ (s.executeAll cs).2.proof.toList

variable {s s' : Session} {c : Command} {o : Outcome} {e : ScriptError}

@[simp] theorem beginnings_error (os : List (Except ScriptError Outcome)) :
    beginnings (.error e :: os) = beginnings os := by
  simp [beginnings, Except.toOption]

@[simp] theorem beginnings_ok (os : List (Except ScriptError Outcome)) :
    beginnings (.ok o :: os) = beginnings os + if o.isBeginning then 1 else 0 := by
  simp [beginnings, List.countP_cons, Except.toOption]

@[simp] theorem stepsAhead_error (os : List (Except ScriptError Outcome)) :
    stepsAhead (.error e :: os) = stepsAhead os := by
  simp [stepsAhead, Except.toOption]

theorem stepsAhead_turn (h : o.isTurn = true) (os : List (Except ScriptError Outcome)) :
    stepsAhead (.ok o :: os) = [] := by
  simp [stepsAhead, Except.toOption, h]

theorem stepsAhead_ok (h : o.isTurn = false) (os : List (Except ScriptError Outcome)) :
    stepsAhead (.ok o :: os) = o.step?.toList ++ stepsAhead os := by
  simp only [stepsAhead, Except.toOption, Option.any_some, h, Bool.not_false, List.takeWhile_cons,
    if_true, List.filterMap_cons, Option.bind_some]
  cases o.step? <;> rfl

@[simp] theorem handedBack_nil (s : Session) : s.handedBack [] = s.proof.toList := rfl

/-- A command that fails hands nothing back. -/
theorem handedBack_cons_of_error (hx : s.execute c = (.error e, s')) (cs : List Command) :
    s.handedBack (c :: cs) = s'.handedBack cs := by
  simp only [handedBack, executeAll, hx, endedProofs, List.filterMap_cons]
  rfl

theorem handedBack_cons_of_ok (hx : s.execute c = (.ok o, s')) (cs : List Command) :
    s.handedBack (c :: cs) = o.ended?.toList ++ s'.handedBack cs := by
  simp only [handedBack, executeAll, hx, endedProofs, List.filterMap_cons, Except.toOption,
    Option.bind_some]
  cases o.ended? <;> rfl

/-- What comes back is what has been told: the running proof with the steps that are added to it
before it is ended, and then the proofs that are begun. -/
theorem map_account_handedBack (s : Session) (cs : List Command) :
    (s.handedBack cs).map Proof.account =
      (s.proof.map fun π =>
        ⟨π.problem.lhs, π.problem.rhs, π.steps ++ stepsAhead (s.executeAll cs).1⟩).toList ++
      accounts cs (s.executeAll cs).1 := by
  induction cs generalizing s with
  | nil =>
    have hnil : stepsAhead [] = [] := rfl
    rw [handedBack_nil, executeAll, hnil]
    cases s.proof <;> simp [accounts, Proof.account]
  | cons c cs ih =>
    rcases hx : s.execute c with ⟨r, s'⟩
    cases r with
    | error e =>
      rw [handedBack_cons_of_error hx, ih s']
      obtain rfl := eq_of_execute_error hx
      simp [executeAll, hx, accounts]
    | ok o =>
      rw [handedBack_cons_of_ok hx, List.map_append, ih s']
      simp only [executeAll, hx]
      cases executes_of_execute hx with
      | theory hθ =>
        rw [stepsAhead_turn rfl]
        cases s.proof <;> simp [Outcome.ended?, accounts, Proof.account]
      | law hs =>
        rw [stepsAhead_ok rfl]
        simp [Outcome.ended?, Outcome.step?, accounts]
      | prove hs hθ =>
        rw [stepsAhead_turn rfl]
        simp only [List.append_nil]
        cases s.proof <;> rfl
      | @step rule expression name θ π st hs hθ hπ hj =>
        rw [stepsAhead_ok rfl, hπ]
        simp [Outcome.ended?, Outcome.step?, accounts]

/-- The id of the `n`th problem of a script. -/
def problemId (n : Nat) : String := "0." ++ toString n

theorem problemId_injective : Function.Injective problemId := by
  intro m n h
  apply toDigits_ten_injective
  have htexts := congrArg String.toList h
  simpa [problemId, Nat.toString_eq_ofList_toDigits] using htexts

theorem toNat_started_add_one (h : s.started.toNat + 1 < 2 ^ 32) :
    (s.started + 1).toNat = s.started.toNat + 1 := by
  rw [UInt32.toNat_add]
  exact Nat.mod_eq_of_lt h

theorem id_problem (h : s.started.toNat + 1 < 2 ^ 32) (name lhs rhs : String) :
    (s.problem name lhs rhs).id = problemId (s.started.toNat + 1) := by
  simp only [Problem.id, problem, toNat_started_add_one h]
  rfl

/-- The count of proofs goes up with every beginning, and with nothing else. -/
theorem started_executeAll (s : Session) (cs : List Command) :
    (s.executeAll cs).2.started =
      s.started + UInt32.ofNat (beginnings (s.executeAll cs).1) := by
  induction cs generalizing s with
  | nil => simp [executeAll, beginnings]
  | cons c cs ih =>
    rcases hx : s.execute c with ⟨r, s'⟩
    simp only [executeAll, hx, ih s']
    cases r with
    | error e =>
      obtain rfl := eq_of_execute_error hx
      rw [beginnings_error]
    | ok o =>
      rw [beginnings_ok]
      cases executes_of_execute hx with
      | theory hθ => rfl
      | law hs => rfl
      | prove hs hθ =>
        rw [UInt32.add_assoc, UInt32.ofNat_add, UInt32.add_comm (UInt32.ofNat _)]
        rfl
      | step hs hθ hπ hj => rfl

/-- As long as the count of proofs does not overflow, those that are begun are numbered one after
the other. -/
theorem map_id_handedBack (s : Session) (cs : List Command)
    (h : s.started.toNat + beginnings (s.executeAll cs).1 < 2 ^ 32) :
    (s.handedBack cs).map (·.problem.id) =
      (s.proof.map (·.problem.id)).toList ++
      (List.range' (s.started.toNat + 1) (beginnings (s.executeAll cs).1)).map problemId := by
  induction cs generalizing s with
  | nil => cases h : s.proof <;> simp [h, executeAll, beginnings]
  | cons c cs ih =>
    rcases hx : s.execute c with ⟨r, s'⟩
    cases r with
    | error e =>
      obtain rfl := eq_of_execute_error hx
      simp only [executeAll, hx, beginnings_error] at h ⊢
      rw [handedBack_cons_of_error hx, ih s' h]
    | ok o =>
      simp only [executeAll, hx, beginnings_ok] at h ⊢
      rw [handedBack_cons_of_ok hx, List.map_append]
      cases executes_of_execute hx with
      | theory hθ =>
        rw [ih _ h]
        cases s.proof <;> rfl
      | law hs =>
        rw [ih _ h]
        rfl
      | prove hs hθ =>
        simp only [Outcome.isBeginning, if_true] at h ⊢
        have hnext := toNat_started_add_one (s := s) (by omega)
        rw [ih _ (by rw [hnext]; omega), List.range'_succ, List.map_cons, hnext,
          ← id_problem (by omega) _ _ _]
        cases s.proof <;> rfl
      | @step rule expression name θ π st hs hθ hπ hj =>
        rw [ih _ h, hπ]
        rfl

/-- Whatever commands are carried out in a session of its own, with any library: the proofs that are
handed back, followed by the one that is left at the end, are one proof for each command that has
begun one, in the order of these commands, with the equation of the command and the steps that are
added until a theory is selected or the next proof is begun. As long as the count of proofs does not
overflow, no two of them have the same id. -/
theorem begun_proofs_come_back (L : Library) (cs : List Command) :
    let results := ((fresh L).executeAll cs).1
    ((fresh L).handedBack cs).map Proof.account = accounts cs results ∧
    (beginnings results < 2 ^ 32 →
      ((fresh L).handedBack cs).length = beginnings results ∧
      (((fresh L).handedBack cs).map (·.problem.id)).Nodup) := by
  intro results
  refine ⟨map_account_handedBack (fresh L) cs, fun h => ?_⟩
  have hzero : (fresh L).started.toNat = 0 := rfl
  have hids : ((fresh L).handedBack cs).map (·.problem.id) =
      (List.range' 1 (beginnings results)).map problemId := by
    rw [map_id_handedBack (fresh L) cs (by rwa [hzero, Nat.zero_add])]
    rfl
  constructor
  · have hlength := congrArg List.length hids
    rwa [List.length_map, List.length_map, List.length_range'] at hlength
  · rw [hids, List.Nodup, List.pairwise_map]
    exact List.Pairwise.imp (fun hne heq => hne (problemId_injective heq)) List.nodup_range'

/-- Two proofs in the theory of sets, the first ended by a theory line and followed by a step that
belongs to no proof, the second by the beginning of a third one, which is left without a step. -/
theorem begun_proofs_come_back_of_idempotence :
    let union : Rule := ⟨"idem1", "Idempotence of Union", "x ∪ x", "x", 2⟩
    let intersection : Rule := ⟨"idem2", "Idempotence of Intersection", "x ∩ x", "x", 2⟩
    let cs : List Command := [.step "idem1" "A", .theory "set_theory", .prove "A ∪ A" "A",
      .step "idem1" "A", .step "idem1" "B", .theory "number_theory", .theory "set_theory",
      .step "idem1" "A", .prove "A ∩ A" "A", .step "idem2" "A",
      .law ⟨"Idempotence", none, "x", "x", none⟩, .step "idem2" "A ∩ A", .prove "A" "A"]
    ∃ L, Library.ofPresentations Library.shipped = .ok L ∧
      ((fresh L).handedBack cs).map Proof.account =
        [⟨"A ∪ A", "A", [⟨"A", union⟩]⟩,
          ⟨"A ∩ A", "A", [⟨"A", intersection⟩, ⟨"A∩A", intersection⟩]⟩, ⟨"A", "A", []⟩] ∧
      beginnings ((fresh L).executeAll cs).1 < 2 ^ 32 ∧ ((fresh L).handedBack cs).length = 3 ∧
      (((fresh L).handedBack cs).map (·.problem.id)).Nodup := by
  intro union intersection cs
  obtain ⟨L, hL, hrun⟩ := Library.exists_shipped_of_any (f := fun L =>
      let results := ((fresh L).executeAll cs).1
      accounts cs results ==
        [⟨"A ∪ A", "A", [⟨"A", union⟩]⟩,
          ⟨"A ∩ A", "A", [⟨"A", intersection⟩, ⟨"A∩A", intersection⟩]⟩, ⟨"A", "A", []⟩] &&
        beginnings results == 3) (by decide +kernel)
  simp only [Bool.and_eq_true, beq_iff_eq] at hrun
  obtain ⟨haccounts, hcount⟩ := hrun
  obtain ⟨hback, hids⟩ := begun_proofs_come_back L cs
  have hfew : beginnings ((fresh L).executeAll cs).1 < 2 ^ 32 := by
    rw [hcount]
    decide
  obtain ⟨hlength, hnodup⟩ := hids hfew
  exact ⟨L, hL, hback.trans haccounts, hfew, hlength.trans hcount, hnodup⟩

end Session

end Equational
