import Equational.Library
import Equational.Proof
import Equational.Script.Command

/-!
A session carries out the commands of a script. It holds the library whose theories the commands
change, the selected theory, the laws declared since it was selected, and the proof that is being
written. A command that fails leaves all of it as it was.
-/

namespace Equational

inductive ScriptError where
  | syntaxError (e : LineError)
  | noTheory
  | noProof
  | library (e : LibraryError)
  | proof (e : ProofError)
deriving DecidableEq

def ScriptError.message : ScriptError → String
  | syntaxError e => "Syntax error: " ++ e.message
  | noTheory => "No theory has been selected"
  | noProof => "No proof has been started"
  | library e => e.message
  | proof e => e.message

/-- What a command has done. Selecting a theory and beginning a proof hand back the proof that was
being written before. -/
inductive Outcome where
  | theorySelected (ended : Option Proof)
  | lawAdded
  | proofStarted (ended : Option Proof)
  | stepAdded (s : ProofStep)
deriving DecidableEq

structure Session where
  library : Library
  selected : Option String
  laws : List Law
  proof : Option Proof
  started : UInt32

namespace Session

/-- A session in which nothing has happened yet. -/
def fresh (L : Library) : Session := ⟨L, none, [], none, 0⟩

/-- The rule that a step names, either by the name of a law or by its own. -/
def ruleName (s : Session) (p : Problem) (name : String) : String :=
  match s.laws.find? (·.name == name) with
  | some l => l.ruleName p.id
  | none => name

/-- The problem of a script's proof: they are numbered in order, and bring along the laws declared
before. -/
def problem (s : Session) (theory lhs rhs : String) : Problem where
  week := 0
  number := s.started + 1
  theory := theory
  name := lhs ++ " = " ++ rhs
  description := ""
  lhs := lhs
  rhs := rhs
  hints := []
  enabledRules := none
  disabledRules := none
  customLaws := some s.laws

def selectTheory (s : Session) (name : String) : Except ScriptError Outcome × Session :=
  match s.library.get name with
  | .error e => (.error (.library e), s)
  | .ok θ =>
    (.ok (.theorySelected s.proof),
      { s with
        library := s.library.put name θ.clear
        selected := some name
        laws := []
        proof := none })

def addLaw (s : Session) (l : Law) : Except ScriptError Outcome × Session :=
  match s.selected with
  | none => (.error .noTheory, s)
  | some _ => (.ok .lawAdded, { s with laws := s.laws ++ [l] })

def startProof (s : Session) (lhs rhs : String) : Except ScriptError Outcome × Session :=
  match s.selected with
  | none => (.error .noTheory, s)
  | some name =>
    match s.library.get name with
    | .error e => (.error (.library e), s)
    | .ok θ =>
      let p := s.problem name lhs rhs
      (.ok (.proofStarted s.proof),
        { s with
          library := s.library.put name (θ.start p)
          proof := some (.ofProblem p)
          started := s.started + 1 })

def addStep (s : Session) (rule expression : String) : Except ScriptError Outcome × Session :=
  match s.selected with
  | none => (.error .noTheory, s)
  | some name =>
    match s.library.get name with
    | .error e => (.error (.library e), s)
    | .ok θ =>
      match s.proof with
      | none => (.error .noProof, s)
      | some π =>
        match π.add θ expression (s.ruleName π.problem rule) with
        | (.ok step, π) => (.ok (.stepAdded step), { s with proof := some π })
        | (.error e, π) => (.error (.proof e), { s with proof := some π })

/-- Carries out a command. -/
def execute (s : Session) : Command → Except ScriptError Outcome × Session
  | .theory name => s.selectTheory name
  | .law l => s.addLaw l
  | .prove lhs rhs => s.startProof lhs rhs
  | .step rule expression => s.addStep rule expression

end Session

end Equational
