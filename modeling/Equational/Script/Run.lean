import Equational.Script.Session

/-!
A run carries out the lines of a script one after the other and stops at the first that fails. It
is kept as the events that a reader of the script is told about.
-/

namespace Equational

/-- What is told about a script, each with the theory that it belongs to, or why there is none. -/
inductive Event where
  | proofStarted (θ : Theory) (p : Problem)
  | stepAdded (θ : Theory) (s : ProofStep)
  | proofEnded (θ : Theory) (π : Proof)
  | noTheory (e : LibraryError)

/-- A line that fails, counted from one, and why. -/
structure LineFailure where
  line : Nat
  cause : ScriptError
deriving DecidableEq

/-- The events of a run in order, and the failure that stopped it. -/
structure Run where
  events : List Event
  failure : Option LineFailure

namespace Session

/-- The event that belongs to the theory of a name. -/
def told (s : Session) (theory : String) (event : Theory → Event) : Event :=
  match s.library.get theory with
  | .ok θ => event θ
  | .error e => .noTheory e

/-- The end of a proof, told with the theory of its problem. -/
def ended (s : Session) : Option Proof → List Event
  | none => []
  | some π => [s.told π.problem.theory (.proofEnded · π)]

/-- What is told about an outcome, in the session that it leads to. -/
def events (s : Session) : Outcome → List Event
  | .theorySelected π => s.ended π
  | .lawAdded => []
  | .proofStarted π =>
    s.ended π ++
      match s.proof with
      | some π => [s.told π.problem.theory (.proofStarted · π.problem)]
      | none => []
  | .stepAdded step =>
    match s.selected with
    | some name => [s.told name (.stepAdded · step)]
    | none => []

/-- Reads a line and carries out its command, if it holds one. -/
def executeLine (s : Session) (line : String) : Except ScriptError (Option Outcome) × Session :=
  match Command.ofLine line with
  | .error e => (.error (.syntaxError e), s)
  | .ok none => (.ok none, s)
  | .ok (some c) =>
    match s.execute c with
    | (.ok o, s) => (.ok (some o), s)
    | (.error e, s) => (.error e, s)

/-- Runs lines from the line of the given number on. The proof left at the end is told as ended. -/
def run (s : Session) (number : Nat) : List String → Run
  | [] => ⟨s.ended s.proof, none⟩
  | line :: lines =>
    match s.executeLine line with
    | (.error e, _) => ⟨[], some ⟨number, e⟩⟩
    | (.ok none, s) => s.run (number + 1) lines
    | (.ok (some o), s) =>
      let r := s.run (number + 1) lines
      { r with events := s.events o ++ r.events }

end Session

/-- The lines of a script. -/
def scriptLines (script : String) : List String :=
  (Text.lines script.toList).map String.ofList

/-- Runs a whole script in a session of its own. -/
def Run.ofScript (L : Library) (script : String) : Run :=
  (Session.fresh L).run 1 (scriptLines script)

end Equational
