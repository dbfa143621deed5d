import Equational.Term.Basic
import Equational.Term.Linear
import Equational.Text.Blank
import Equational.Text.Lowercase
import Equational.Text.Quoted
import Equational.SortedMap
import Equational.Signature.Basic
import Equational.Formula.Nesting
import Equational.Formula.Reading
import Equational.Formula.Descent
import Equational.Formula.Writing
import Equational.Rewriting.Step
import Equational.Theory.Basic
import Equational.Theory.Cache
import Equational.Library
import Equational.Proof
import Equational.Text.Lines
import Equational.Script.Session
import Equational.Json.Number
import Equational.Json.Quoted
import Equational.Json.Reader
import Equational.Json.Record
import Equational.Exchange.Proof
import Equational.Exchange.Term
import Equational.Script.CommandLine
import Equational.Main
import Equational.Proofs.Rewriting.OneSite
import Equational.Proofs.Rewriting.FailedMatch
import Equational.Proofs.Signature.Offences
import Equational.Proofs.Formula.Grammar
import Equational.Proofs.Formula.Descent
import Equational.Proofs.Formula.Spelling
import Equational.Proofs.Formula.Printing
import Equational.Proofs.Formula.Layers
import Equational.Proofs.Formula.RoundTrip
import Equational.Proofs.Formula.Faults
import Equational.Proofs.Formula.Parentheses
import Equational.Proofs.Formula.Legibility
import Equational.Proofs.Problem.Ids
import Equational.Proofs.Semantics.Boolean
import Equational.Proofs.Proof.Justified
import Equational.Proofs.Script.Soundness
import Equational.Proofs.Script.Steps
import Equational.Proofs.Theory.History
import Equational.Proofs.Theory.Cache
import Equational.Proofs.Proof.Replay
import Equational.Proofs.Proof.Editing
import Equational.Proofs.Script.Agreement
import Equational.Proofs.Semantics.Model
import Equational.Proofs.Script.Failures
import Equational.Proofs.Theory.LawNames
import Equational.Proofs.Script.Citations
import Equational.Proofs.Script.LaterLaws
import Equational.Proofs.Script.Finishing
import Equational.Proofs.Script.ExitStatus
import Equational.Proofs.Script.HandedBack
import Equational.Proofs.Theory.Malformed
import Equational.Proofs.Theory.Forgetting
import Equational.Proofs.Script.Isolation
import Equational.Proofs.Script.RoundTrip
import Equational.Proofs.Rewriting.LeastBindings
import Equational.Proofs.Rewriting.Renaming
import Equational.Proofs.Term.Walks
import Equational.Proofs.Term.Notations
import Equational.Proofs.Term.Replacing
import Equational.Proofs.Script.Explanations
import Equational.Proofs.Exchange.RoundTrip
