import Equational.Exchange.Proof
import Equational.Script.Run

namespace Equational

structure Layout where
  style : Style
  asJson : Bool
deriving DecidableEq, Inhabited

/-- Why an event cannot be told. -/
inductive TellingError where
  | read (e : ReadError)
  | library (e : LibraryError)
deriving DecidableEq

def TellingError.message : TellingError → String
  | read e => e.message
  | library e => e.message

namespace Event

/-- The lines that tell an event. A proof is listed as soon as it begins, so both sides of its
equation have to be readable then. -/
def lines (l : Layout) : Event → Except TellingError (List String)
  | proofStarted θ p =>
    if l.asJson then .ok []
    else do
      let t ← (θ.read p.lhs).mapError .read
      let u ← (θ.read p.rhs).mapError .read
      return [θ.signature.renderEquation l.style t u, "    " ++ θ.signature.render l.style t]
  | stepAdded θ s =>
    if l.asJson then .ok []
    else do
      let t ← (θ.read s.expression).mapError .read
      return ["  " ++ θ.signature.equality.form l.style ++ " " ++ θ.signature.render l.style t ++
        "    [" ++ s.rule.text ++ "]"]
  | proofEnded θ π =>
    if l.asJson then .ok [(π.sheet θ).toJson.pretty 0]
    else .ok [if π.isComplete θ then "goal reached" else "goal not reached", ""]
  | noTheory e => .error (.library e)

/-- A proof has ended without reaching its right side. -/
def isFailedProof : Event → Bool
  | proofEnded θ π => !π.isComplete θ
  | _ => false

end Event

/-- What a program leaves behind: its exit status and what it has written to its two outputs. -/
structure Exit where
  code : UInt32
  stdout : String
  stderr : String
deriving DecidableEq, Inhabited

namespace Exit

def ok (stdout : String) : Exit := ⟨0, stdout, ""⟩

def failed (stdout message : String) : Exit := ⟨1, stdout, "Error: " ++ message ++ "\n"⟩

/-- A failure that is told together with what was being done. -/
def failedWithin (stdout context message : String) : Exit :=
  failed stdout (context ++ "\n\nCaused by:\n    " ++ message)

end Exit

/-- The lines that tell events, up to the first event that cannot be told. -/
def listing (l : Layout) : List Event → List String × Option TellingError
  | [] => ([], none)
  | e :: es =>
    match e.lines l with
    | .error err => ([], some err)
    | .ok ls => let (rest, err) := listing l es; (ls ++ rest, err)

/-- Shows the run of the script of a name. It succeeds if no line fails and every proof reaches
its right side. -/
def Run.show (r : Run) (l : Layout) (script : String) : Exit :=
  let (ls, err) := listing l r.events
  let stdout := String.join (ls.map (· ++ "\n"))
  match err, r.failure with
  | some e, _ => .failed stdout e.message
  | none, some f => .failedWithin stdout (script ++ ":" ++ toString f.line) f.cause.message
  | none, none =>
    match r.events.countP Event.isFailedProof with
    | 0 => .ok stdout
    | n => .failed stdout (toString n ++ " proof(s) did not reach their goal")

end Equational
